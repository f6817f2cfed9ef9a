import Pysnmp.Foundation.Effect
import Pysnmp.Foundation.Run

/-!
# The timer of the dispatcher

`TimerCallable` and the timer of `AbstractTransportDispatcher`, of `carrier/base.py`. The dispatcher
and each of its callables keep a time of their own before which they do nothing: the dispatcher's is
short of a whole interval by the delta, a callable's is not. Times are rationals, and the callbacks
leave the dispatcher alone.

A tick that comes within the delta before a whole interval has passed is therefore counted, and held
back from the callables that ran at the tick before it. `everyStep_runsDefaults_iff` says that
nothing else is held back from a callable at the default interval, whatever resolutions are set
between the ticks.
-/

set_option autoImplicit false
set_option relaxedAutoImplicit false

namespace Pysnmp.Carrier.TimerTicks

open Foundation Foundation.Effect

/-- A callback that is run on an interval. The last three fields are not part of the code: whether
it was registered at the resolution of the time, the number of ticks there had been, and the times
it was run at, the last one first. -/
structure TimerCallable (κ : Type) where
  cbFun : κ
  nextCall : ℚ
  callInterval : ℚ
  atDefault : Bool
  registeredAt : ℕ
  calls : List ℚ
  deriving DecidableEq

namespace TimerCallable

variable {κ : Type}

/-- `__call__`. -/
def call (timeNow : ℚ) (callable : TimerCallable κ) : TimerCallable κ :=
  if callable.nextCall ≤ timeNow then
    { callable with
      calls := timeNow :: callable.calls
      nextCall := timeNow + callable.callInterval }
  else
    callable

/-- The new resolution is the interval of a callable that had the old one. -/
def followResolution (oldResolution timerResolution : ℚ) (callable : TimerCallable κ) :
    TimerCallable κ :=
  if callable.callInterval = oldResolution then
    { callable with callInterval := timerResolution }
  else
    callable

/-- The callable is called and its callback is run. -/
def RunsAt (timeNow : ℚ) (before after : TimerCallable κ) : Prop :=
  after.calls = timeNow :: before.calls

variable {timeNow : ℚ} {callable : TimerCallable κ}

/-- A callable runs exactly when its time has come. -/
theorem runsAt_call_iff :
    RunsAt timeNow callable (callable.call timeNow) ↔ callable.nextCall ≤ timeNow := by
  rw [RunsAt, call]
  split_ifs with hdue
  · exact iff_of_true rfl hdue
  · exact iff_of_false (List.cons_ne_self timeNow callable.calls).symm hdue

/-- A callable that is due is called, and waits for its next turn. -/
theorem call_of_le (hdue : callable.nextCall ≤ timeNow) :
    callable.call timeNow =
      { callable with
        calls := timeNow :: callable.calls
        nextCall := timeNow + callable.callInterval } :=
  if_pos hdue

/-- A callable that is not due stays as it is. -/
theorem call_of_lt (hearly : timeNow < callable.nextCall) : callable.call timeNow = callable :=
  if_neg (not_le.mpr hearly)

/-- A call does not change how often a callable is called. -/
@[simp] theorem callInterval_call (timeNow : ℚ) (callable : TimerCallable κ) :
    (callable.call timeNow).callInterval = callable.callInterval := by
  unfold call
  split_ifs <;> rfl

/-- A call does not change where the interval comes from. -/
@[simp] theorem atDefault_call (timeNow : ℚ) (callable : TimerCallable κ) :
    (callable.call timeNow).atDefault = callable.atDefault := by
  unfold call
  split_ifs <;> rfl

variable (oldResolution timerResolution : ℚ) (callable : TimerCallable κ)

/-- A new resolution calls nothing. -/
@[simp] theorem calls_followResolution :
    (followResolution oldResolution timerResolution callable).calls = callable.calls := by
  unfold followResolution
  split_ifs <;> rfl

/-- A new resolution moves no turn. -/
@[simp] theorem nextCall_followResolution :
    (followResolution oldResolution timerResolution callable).nextCall = callable.nextCall := by
  unfold followResolution
  split_ifs <;> rfl

/-- A new resolution does not change where the interval comes from. -/
@[simp] theorem atDefault_followResolution :
    (followResolution oldResolution timerResolution callable).atDefault = callable.atDefault := by
  unfold followResolution
  split_ifs <;> rfl

/-- A new resolution does not change when a callable was registered. -/
@[simp] theorem registeredAt_followResolution :
    (followResolution oldResolution timerResolution callable).registeredAt =
      callable.registeredAt := by
  unfold followResolution
  split_ifs <;> rfl

variable {oldResolution callable}

/-- A callable at the old resolution follows to the new one. -/
theorem callInterval_followResolution (hold : callable.callInterval = oldResolution)
    (timerResolution : ℚ) :
    (followResolution oldResolution timerResolution callable).callInterval = timerResolution := by
  rw [followResolution, if_pos hold]

end TimerCallable

/-- The timer of a dispatcher. Not part of the code is the last field: when the last tick was
counted, and the resolution that was in force. -/
structure AbstractTransportDispatcher (κ : Type) where
  timerCallables : List (TimerCallable κ)
  ticks : ℕ
  timerResolution : ℚ
  timerDelta : ℚ
  nextTime : ℚ
  lastTick : Option (ℚ × ℚ)
  deriving DecidableEq

/-- What the calls raise. -/
inductive TimerError
  | carrierError
  | valueError
  deriving DecidableEq, Repr

namespace AbstractTransportDispatcher

variable {κ : Type}

/-- `__init__`. -/
def init : AbstractTransportDispatcher κ where
  timerCallables := []
  ticks := 0
  timerResolution := 1 / 2
  timerDelta := 1 / 2 * (5 / 100)
  nextTime := 0
  lastTick := none

/-- The interval of a callback: the resolution where none is given, or zero. -/
def tickInterval (dispatcher : AbstractTransportDispatcher κ) (interval : Option ℚ) : ℚ :=
  if interval.getD 0 = 0 then dispatcher.timerResolution else interval.getD 0

/-- `registerTimerCbFun`. -/
def registerTimerCbFun (timerCbFun : κ) (interval : Option ℚ) :
    Effect (AbstractTransportDispatcher κ) TimerError Unit :=
  modify fun dispatcher ↦
    { dispatcher with
      timerCallables := dispatcher.timerCallables ++
        [{ cbFun := timerCbFun
           nextCall := 0
           callInterval := dispatcher.tickInterval interval
           atDefault := dispatcher.tickInterval interval = dispatcher.timerResolution
           registeredAt := dispatcher.ticks
           calls := [] }] }

/-- `unregisterTimerCbFun`, of one callback or of all. -/
def unregisterTimerCbFun [DecidableEq κ] :
    Option κ → Effect (AbstractTransportDispatcher κ) TimerError Unit
  | some timerCbFun => do
    let dispatcher ← get
    if dispatcher.timerCallables.any fun callable ↦ callable.cbFun = timerCbFun then
      modify fun dispatcher ↦
        { dispatcher with
          timerCallables := dispatcher.timerCallables.eraseP fun callable ↦
            callable.cbFun = timerCbFun }
    else
      raise .valueError
  | none => modify fun dispatcher ↦ { dispatcher with timerCallables := [] }

/-- `setTimerResolution`. -/
def setTimerResolution (timerResolution : ℚ) :
    Effect (AbstractTransportDispatcher κ) TimerError Unit :=
  if timerResolution < 1 / 100 ∨ 10 < timerResolution then
    raise .carrierError
  else
    modify fun dispatcher ↦
      { dispatcher with
        timerCallables := dispatcher.timerCallables.map
          (TimerCallable.followResolution dispatcher.timerResolution timerResolution)
        timerResolution := timerResolution
        timerDelta := timerResolution * (5 / 100) }

/-- The time until which the next tick is not counted. -/
def waitUntil (timeNow : ℚ) (dispatcher : AbstractTransportDispatcher κ) : ℚ :=
  timeNow + dispatcher.timerResolution - dispatcher.timerDelta

/-- What a tick does that is counted. -/
def countTick (timeNow : ℚ) (dispatcher : AbstractTransportDispatcher κ) :
    AbstractTransportDispatcher κ :=
  { dispatcher with
    ticks := dispatcher.ticks + 1
    nextTime := dispatcher.waitUntil timeNow
    timerCallables := dispatcher.timerCallables.map (TimerCallable.call timeNow)
    lastTick := some (timeNow, dispatcher.timerResolution) }

/-- `handleTimerTick`. -/
def handleTimerTick (timeNow : ℚ) : Effect (AbstractTransportDispatcher κ) TimerError Unit :=
  modify fun dispatcher ↦
    let nextTime :=
      if dispatcher.nextTime = 0 then dispatcher.waitUntil timeNow else dispatcher.nextTime
    if timeNow ≤ nextTime then
      { dispatcher with nextTime := nextTime }
    else
      countTick timeNow dispatcher

end AbstractTransportDispatcher

/-- The calls of a dispatcher. -/
inductive Event (κ : Type)
  | registerTimerCbFun (timerCbFun : κ) (interval : Option ℚ)
  | unregisterTimerCbFun (timerCbFun : Option κ)
  | setTimerResolution (timerResolution : ℚ)
  | handleTimerTick (timeNow : ℚ)
  deriving DecidableEq

open AbstractTransportDispatcher

variable {κ : Type} [DecidableEq κ]

/-- What a call does. -/
def Event.effect : Event κ → Effect (AbstractTransportDispatcher κ) TimerError Unit
  | registerTimerCbFun timerCbFun interval =>
    AbstractTransportDispatcher.registerTimerCbFun timerCbFun interval
  | unregisterTimerCbFun timerCbFun => AbstractTransportDispatcher.unregisterTimerCbFun timerCbFun
  | setTimerResolution timerResolution =>
    AbstractTransportDispatcher.setTimerResolution timerResolution
  | handleTimerTick timeNow => AbstractTransportDispatcher.handleTimerTick timeNow

/-- The dispatcher after a call, whether that raises or not. -/
def step (dispatcher : AbstractTransportDispatcher κ) (event : Event κ) :
    AbstractTransportDispatcher κ :=
  (event.effect.run dispatcher).2

/-- The times of the ticks among some calls. -/
def tickTimes (events : List (Event κ)) : List ℚ :=
  events.filterMap fun
    | .handleTimerTick timeNow => some timeNow
    | _ => none

/-- If a call advances the tick count, each callback at the default interval is run at its time. -/
def RunsDefaults (dispatcher : AbstractTransportDispatcher κ) : Event κ → Prop
  | .handleTimerTick timeNow =>
    dispatcher.ticks < (step dispatcher (.handleTimerTick timeNow)).ticks →
      List.Forall₂ (fun callable called ↦
          callable.atDefault → TimerCallable.RunsAt timeNow callable called)
        dispatcher.timerCallables (step dispatcher (.handleTimerTick timeNow)).timerCallables
  | _ => True

/-- No tick comes within the slack before a whole interval has passed since the last one, at the
resolution that was in force then, if a callback at the default interval has been run. -/
def NotEarly (dispatcher : AbstractTransportDispatcher κ) : Event κ → Prop
  | .handleTimerTick timeNow =>
    ∀ lastTime resolution, dispatcher.lastTick = some (lastTime, resolution) →
      lastTime + resolution - resolution / 20 < timeNow → timeNow < lastTime + resolution →
        ∀ callable ∈ dispatcher.timerCallables, callable.atDefault → callable.calls = []
  | _ => True

/-! ### The two times stay in step -/

/-- What the calls keep: a callback at the default interval has the resolution for its interval, one
that was not run yet is due at once, and the others are due a whole interval after the last tick,
the dispatcher the slack before that. -/
structure InStep (dispatcher : AbstractTransportDispatcher κ) : Prop where
  resolution_pos : 0 < dispatcher.timerResolution
  timerDelta_eq : dispatcher.timerDelta = dispatcher.timerResolution / 20
  callInterval_eq : ∀ callable ∈ dispatcher.timerCallables, callable.atDefault →
    callable.callInterval = dispatcher.timerResolution
  nextCall_eq_zero : ∀ callable ∈ dispatcher.timerCallables, callable.calls = [] →
    callable.nextCall = 0
  calls_eq_nil : dispatcher.lastTick = none → ∀ callable ∈ dispatcher.timerCallables,
    callable.calls = []
  nextTime_eq : ∀ lastTime resolution, dispatcher.lastTick = some (lastTime, resolution) →
    0 < lastTime ∧ 0 < resolution ∧ dispatcher.nextTime = lastTime + resolution - resolution / 20
  nextCall_eq : ∀ lastTime resolution, dispatcher.lastTick = some (lastTime, resolution) →
    ∀ callable ∈ dispatcher.timerCallables, callable.atDefault → callable.calls ≠ [] →
      callable.nextCall = lastTime + resolution

omit [DecidableEq κ] in
/-- A new dispatcher has no callable out of step. -/
theorem inStep_init : InStep (init : AbstractTransportDispatcher κ) where
  resolution_pos := by norm_num [init]
  timerDelta_eq := by norm_num [init]
  callInterval_eq := fun _ hmem ↦ absurd hmem List.not_mem_nil
  nextCall_eq_zero := fun _ hmem ↦ absurd hmem List.not_mem_nil
  calls_eq_nil := fun _ _ hmem ↦ absurd hmem List.not_mem_nil
  nextTime_eq := fun _ _ hlast ↦ by cases hlast
  nextCall_eq := fun _ _ hlast ↦ by cases hlast

variable {dispatcher : AbstractTransportDispatcher κ}

omit [DecidableEq κ] in
/-- Fewer callbacks are in step. -/
theorem InStep.of_subset (hinStep : InStep dispatcher) {timerCallables : List (TimerCallable κ)}
    (hsubset : timerCallables ⊆ dispatcher.timerCallables) :
    InStep { dispatcher with timerCallables := timerCallables } where
  resolution_pos := hinStep.resolution_pos
  timerDelta_eq := hinStep.timerDelta_eq
  callInterval_eq := fun callable hmem ↦ hinStep.callInterval_eq callable (hsubset hmem)
  nextCall_eq_zero := fun callable hmem ↦ hinStep.nextCall_eq_zero callable (hsubset hmem)
  calls_eq_nil := fun hlast callable hmem ↦ hinStep.calls_eq_nil hlast callable (hsubset hmem)
  nextTime_eq := hinStep.nextTime_eq
  nextCall_eq := fun lastTime resolution hlast callable hmem ↦
    hinStep.nextCall_eq lastTime resolution hlast callable (hsubset hmem)

/-- A callable is in step when it is registered. -/
theorem InStep.registerTimerCbFun (hinStep : InStep dispatcher) (timerCbFun : κ)
    (interval : Option ℚ) : InStep (step dispatcher (.registerTimerCbFun timerCbFun interval)) where
  resolution_pos := hinStep.resolution_pos
  timerDelta_eq := hinStep.timerDelta_eq
  callInterval_eq := by
    intro callable hmem hdefault
    rcases List.mem_append.mp hmem with hbefore | hnew
    · exact hinStep.callInterval_eq callable hbefore hdefault
    · rw [List.mem_singleton.mp hnew] at hdefault ⊢
      exact of_decide_eq_true hdefault
  nextCall_eq_zero := by
    intro callable hmem hcalls
    rcases List.mem_append.mp hmem with hbefore | hnew
    · exact hinStep.nextCall_eq_zero callable hbefore hcalls
    · rw [List.mem_singleton.mp hnew]
  calls_eq_nil := by
    intro hlast callable hmem
    rcases List.mem_append.mp hmem with hbefore | hnew
    · exact hinStep.calls_eq_nil hlast callable hbefore
    · rw [List.mem_singleton.mp hnew]
  nextTime_eq := hinStep.nextTime_eq
  nextCall_eq := by
    intro lastTime resolution hlast callable hmem hdefault hcalls
    rcases List.mem_append.mp hmem with hbefore | hnew
    · exact hinStep.nextCall_eq lastTime resolution hlast callable hbefore hdefault hcalls
    · rw [List.mem_singleton.mp hnew] at hcalls
      exact absurd rfl hcalls

/-- Unregistering leaves a part of the callbacks. -/
theorem step_unregisterTimerCbFun (dispatcher : AbstractTransportDispatcher κ)
    (timerCbFun : Option κ) :
    ∃ timerCallables ⊆ dispatcher.timerCallables,
      step dispatcher (.unregisterTimerCbFun timerCbFun) =
        { dispatcher with timerCallables := timerCallables } := by
  cases timerCbFun with
  | none => exact ⟨[], List.nil_subset _, rfl⟩
  | some timerCbFun =>
    by_cases hany : dispatcher.timerCallables.any fun callable ↦ callable.cbFun = timerCbFun
    · refine ⟨_, List.eraseP_subset (p := fun callable ↦ callable.cbFun = timerCbFun), ?_⟩
      simp only [step, Event.effect, AbstractTransportDispatcher.unregisterTimerCbFun,
        bind_run_of_ok (get_run dispatcher), if_pos hany, modify_run]
    · refine ⟨dispatcher.timerCallables, List.Subset.refl _, ?_⟩
      simp only [step, Event.effect, AbstractTransportDispatcher.unregisterTimerCbFun,
        bind_run_of_ok (get_run dispatcher), if_neg hany, raise_run]

/-- A resolution is refused, or it is positive and moves the callbacks that had the old one. -/
theorem step_setTimerResolution (dispatcher : AbstractTransportDispatcher κ)
    (timerResolution : ℚ) :
    step dispatcher (.setTimerResolution timerResolution) = dispatcher ∨
      0 < timerResolution ∧ step dispatcher (.setTimerResolution timerResolution) =
        { dispatcher with
          timerCallables := dispatcher.timerCallables.map
            (TimerCallable.followResolution dispatcher.timerResolution timerResolution)
          timerResolution := timerResolution
          timerDelta := timerResolution * (5 / 100) } := by
  by_cases hrange : timerResolution < 1 / 100 ∨ 10 < timerResolution
  · left
    simp only [step, Event.effect, AbstractTransportDispatcher.setTimerResolution, if_pos hrange,
      raise_run]
  · right
    have hlow : 1 / 100 ≤ timerResolution := not_lt.mp fun hlt ↦ hrange (Or.inl hlt)
    refine ⟨lt_of_lt_of_le (by norm_num) hlow, ?_⟩
    simp only [step, Event.effect, AbstractTransportDispatcher.setTimerResolution, if_neg hrange,
      modify_run]

/-- Those that stay registered stay in step. -/
theorem InStep.unregisterTimerCbFun (hinStep : InStep dispatcher) (timerCbFun : Option κ) :
    InStep (step dispatcher (.unregisterTimerCbFun timerCbFun)) := by
  obtain ⟨timerCallables, hsubset, hstep⟩ := step_unregisterTimerCbFun dispatcher timerCbFun
  rw [hstep]
  exact hinStep.of_subset hsubset

/-- Callables at the default interval stay in step with the resolution. -/
theorem InStep.setTimerResolution (hinStep : InStep dispatcher) (timerResolution : ℚ) :
    InStep (step dispatcher (.setTimerResolution timerResolution)) := by
  rcases step_setTimerResolution dispatcher timerResolution with hstep | ⟨hpos, hstep⟩
  · rw [hstep]
    exact hinStep
  · rw [hstep]
    exact
      { resolution_pos := hpos
        timerDelta_eq := by ring
        callInterval_eq := List.forall_mem_map.mpr fun callable hmem hdefault ↦
          TimerCallable.callInterval_followResolution (hinStep.callInterval_eq callable hmem
            (by rwa [TimerCallable.atDefault_followResolution] at hdefault)) timerResolution
        nextCall_eq_zero := List.forall_mem_map.mpr fun callable hmem ↦ by
          simpa using hinStep.nextCall_eq_zero callable hmem
        calls_eq_nil := fun hlast ↦ List.forall_mem_map.mpr fun callable hmem ↦ by
          simpa using hinStep.calls_eq_nil hlast callable hmem
        nextTime_eq := hinStep.nextTime_eq
        nextCall_eq := fun lastTime resolution hlast ↦
          List.forall_mem_map.mpr fun callable hmem ↦ by
            simpa using hinStep.nextCall_eq lastTime resolution hlast callable hmem }

/-- A tick at a positive time is not counted before the dispatcher's next time, which the first one
sets, and is counted after it. -/
theorem InStep.step_handleTimerTick (hinStep : InStep dispatcher) (timeNow : ℚ) :
    (∃ nextTime, timeNow ≤ nextTime ∧
        (dispatcher.nextTime = 0 ∨ nextTime = dispatcher.nextTime) ∧
        step dispatcher (.handleTimerTick timeNow) = { dispatcher with nextTime := nextTime }) ∨
      dispatcher.nextTime < timeNow ∧
        step dispatcher (.handleTimerTick timeNow) = dispatcher.countTick timeNow := by
  have hstep : step dispatcher (.handleTimerTick timeNow) =
      if timeNow ≤ (if dispatcher.nextTime = 0 then dispatcher.waitUntil timeNow
          else dispatcher.nextTime) then
        { dispatcher with
          nextTime := if dispatcher.nextTime = 0 then dispatcher.waitUntil timeNow
            else dispatcher.nextTime }
      else dispatcher.countTick timeNow := rfl
  by_cases hinitial : dispatcher.nextTime = 0
  · have hwait : timeNow ≤ dispatcher.waitUntil timeNow := by
      have hpos := hinStep.resolution_pos
      rw [waitUntil, hinStep.timerDelta_eq]
      linarith
    rw [if_pos hinitial, if_pos hwait] at hstep
    exact Or.inl ⟨dispatcher.waitUntil timeNow, hwait, Or.inl hinitial, hstep⟩
  · rw [if_neg hinitial] at hstep
    rcases le_or_gt timeNow dispatcher.nextTime with hwait | hcounted
    · rw [if_pos hwait] at hstep
      exact Or.inl ⟨dispatcher.nextTime, hwait, Or.inr rfl, hstep⟩
    · rw [if_neg (not_le.mpr hcounted)] at hstep
      exact Or.inr ⟨hcounted, hstep⟩

omit [DecidableEq κ] in
/-- A callback that was not run yet, or is due a whole interval after the last tick, is run at a
tick that is counted, unless that is early. -/
theorem InStep.forall_due_iff (hinStep : InStep dispatcher) {timeNow : ℚ}
    (hcounted : dispatcher.nextTime < timeNow) (htime : 0 < timeNow) :
    (∀ callable ∈ dispatcher.timerCallables, callable.atDefault → callable.nextCall ≤ timeNow) ↔
      NotEarly dispatcher (.handleTimerTick timeNow) := by
  have hfresh : ∀ callable ∈ dispatcher.timerCallables, callable.calls = [] →
      callable.nextCall ≤ timeNow := by
    intro callable hmem hcalls
    rw [hinStep.nextCall_eq_zero callable hmem hcalls]
    exact htime.le
  constructor
  · intro hdue lastTime resolution hlast hslack hearly callable hmem hdefault
    by_contra hcalls
    have hnext := hdue callable hmem hdefault
    rw [hinStep.nextCall_eq lastTime resolution hlast callable hmem hdefault hcalls] at hnext
    exact absurd hearly (not_lt.mpr hnext)
  · intro hnotEarly callable hmem hdefault
    by_cases hcalls : callable.calls = []
    · exact hfresh callable hmem hcalls
    cases hlast : dispatcher.lastTick with
    | none => exact absurd (hinStep.calls_eq_nil hlast callable hmem) hcalls
    | some tick =>
      obtain ⟨lastTime, resolution⟩ := tick
      obtain ⟨-, -, hnextTime⟩ := hinStep.nextTime_eq lastTime resolution hlast
      rw [hinStep.nextCall_eq lastTime resolution hlast callable hmem hdefault hcalls]
      by_contra hearly
      exact hcalls (hnotEarly lastTime resolution hlast (hnextTime ▸ hcounted)
        (not_le.mp hearly) callable hmem hdefault)

omit [DecidableEq κ] in
/-- Callables are run in their places if each is due. -/
theorem forall₂_runsAt_iff (timerCallables : List (TimerCallable κ)) (timeNow : ℚ) :
    List.Forall₂ (fun callable called ↦
        callable.atDefault → TimerCallable.RunsAt timeNow callable called)
      timerCallables (timerCallables.map (TimerCallable.call timeNow)) ↔
      ∀ callable ∈ timerCallables, callable.atDefault → callable.nextCall ≤ timeNow := by
  rw [List.forall₂_map_right_iff, List.forall₂_same]
  exact forall₂_congr fun callable _ ↦ imp_congr_right fun _ ↦ TimerCallable.runsAt_call_iff

/-- A tick runs every callback at the default interval, if it is counted, exactly if it is not
early. -/
theorem InStep.runsDefaults_handleTimerTick_iff (hinStep : InStep dispatcher) {timeNow : ℚ}
    (htime : 0 < timeNow) :
    RunsDefaults dispatcher (.handleTimerTick timeNow) ↔
      NotEarly dispatcher (.handleTimerTick timeNow) := by
  rcases hinStep.step_handleTimerTick timeNow with
    ⟨nextTime, hwait, hnextTime, hstep⟩ | ⟨hcounted, hstep⟩
  · refine iff_of_true ?_ ?_
    · intro hticks
      rw [hstep] at hticks
      exact absurd hticks (lt_irrefl _)
    · intro lastTime resolution hlast hslack
      obtain ⟨htime', hpos, heq⟩ := hinStep.nextTime_eq lastTime resolution hlast
      rcases hnextTime with hzero | hsame
      · rw [hzero] at heq
        linarith
      · rw [hsame, heq] at hwait
        exact absurd hslack (not_lt.mpr hwait)
  · rw [← hinStep.forall_due_iff hcounted htime, ← forall₂_runsAt_iff, RunsDefaults, hstep]
    exact ⟨fun hruns ↦ hruns (Nat.lt_succ_self _), fun hruns _ ↦ hruns⟩

omit [DecidableEq κ] in
/-- A counted tick at which each callback at the default interval is due keeps the times in
step. -/
theorem InStep.countTick (hinStep : InStep dispatcher) {timeNow : ℚ} (htime : 0 < timeNow)
    (hdue : ∀ callable ∈ dispatcher.timerCallables, callable.atDefault →
      callable.nextCall ≤ timeNow) :
    InStep (dispatcher.countTick timeNow) where
  resolution_pos := hinStep.resolution_pos
  timerDelta_eq := hinStep.timerDelta_eq
  callInterval_eq := List.forall_mem_map.mpr fun callable hmem hdefault ↦ by
    rw [TimerCallable.atDefault_call] at hdefault
    rw [TimerCallable.callInterval_call]
    exact hinStep.callInterval_eq callable hmem hdefault
  nextCall_eq_zero := List.forall_mem_map.mpr fun callable hmem hcalls ↦ by
    rcases le_or_gt callable.nextCall timeNow with hnow | hlater
    · rw [TimerCallable.call_of_le hnow] at hcalls
      cases hcalls
    · rw [TimerCallable.call_of_lt hlater] at hcalls ⊢
      exact hinStep.nextCall_eq_zero callable hmem hcalls
  calls_eq_nil := fun hlast ↦ by cases hlast
  nextTime_eq := by
    intro lastTime resolution hlast
    cases hlast
    exact ⟨htime, hinStep.resolution_pos, by
      rw [AbstractTransportDispatcher.countTick, waitUntil, hinStep.timerDelta_eq]⟩
  nextCall_eq := by
    intro lastTime resolution hlast
    cases hlast
    refine List.forall_mem_map.mpr fun callable hmem hdefault _ ↦ ?_
    rw [TimerCallable.atDefault_call] at hdefault
    rw [TimerCallable.call_of_le (hdue callable hmem hdefault)]
    exact congrArg (timeNow + ·) (hinStep.callInterval_eq callable hmem hdefault)

/-- A tick that runs the callbacks at the default interval, if it is counted, keeps the times in
step. -/
theorem InStep.handleTimerTick (hinStep : InStep dispatcher) {timeNow : ℚ} (htime : 0 < timeNow)
    (hruns : RunsDefaults dispatcher (.handleTimerTick timeNow)) :
    InStep (step dispatcher (.handleTimerTick timeNow)) := by
  rcases hinStep.step_handleTimerTick timeNow with
    ⟨nextTime, hwait, hnextTime, hstep⟩ | ⟨hcounted, hstep⟩
  · rw [hstep]
    refine { hinStep with nextTime_eq := fun lastTime resolution hlast ↦ ?_ }
    obtain ⟨hlastTime, hpos, heq⟩ := hinStep.nextTime_eq lastTime resolution hlast
    rcases hnextTime with hzero | hsame
    · rw [hzero] at heq
      linarith
    · exact ⟨hlastTime, hpos, hsame.trans heq⟩
  · rw [RunsDefaults, hstep] at hruns
    rw [hstep]
    exact hinStep.countTick htime
      ((forall₂_runsAt_iff dispatcher.timerCallables timeNow).mp (hruns (Nat.lt_succ_self _)))

/-! ### The pace of the callbacks -/

/-- A callback at the default interval was run as often as there were ticks since it was
registered. -/
def KeepsPace (dispatcher : AbstractTransportDispatcher κ) : Prop :=
  ∀ callable ∈ dispatcher.timerCallables, callable.atDefault →
    callable.calls.length + callable.registeredAt = dispatcher.ticks

/-- The callbacks that are run whenever the tick count advances keep its pace. -/
theorem KeepsPace.step (hpace : KeepsPace dispatcher) (hinStep : InStep dispatcher)
    {event : Event κ} (hruns : RunsDefaults dispatcher event) :
    KeepsPace (step dispatcher event) := by
  cases event with
  | registerTimerCbFun timerCbFun interval =>
    intro callable hmem hdefault
    rcases List.mem_append.mp hmem with hbefore | hnew
    · exact hpace callable hbefore hdefault
    · rw [List.mem_singleton.mp hnew]
      exact Nat.zero_add _
  | unregisterTimerCbFun timerCbFun =>
    obtain ⟨timerCallables, hsubset, hstep⟩ := step_unregisterTimerCbFun dispatcher timerCbFun
    rw [hstep]
    exact fun callable hmem ↦ hpace callable (hsubset hmem)
  | setTimerResolution timerResolution =>
    rcases step_setTimerResolution dispatcher timerResolution with hstep | ⟨-, hstep⟩
    · rw [hstep]
      exact hpace
    · rw [hstep]
      refine List.forall_mem_map.mpr fun callable hmem ↦ ?_
      simpa using hpace callable hmem
  | handleTimerTick timeNow =>
    rcases hinStep.step_handleTimerTick timeNow with ⟨nextTime, -, -, hstep⟩ | ⟨-, hstep⟩
    · rw [hstep]
      exact hpace
    · rw [RunsDefaults, hstep] at hruns
      have hdue := (forall₂_runsAt_iff dispatcher.timerCallables timeNow).mp
        (hruns (Nat.lt_succ_self _))
      rw [hstep]
      refine List.forall_mem_map.mpr fun callable hmem hdefault ↦ ?_
      rw [TimerCallable.atDefault_call] at hdefault
      have hbefore := hpace callable hmem hdefault
      rw [TimerCallable.call_of_le (hdue callable hmem hdefault)]
      change callable.calls.length + 1 + callable.registeredAt = dispatcher.ticks + 1
      omega

/-! ### Runs -/

/-- A call that runs the callbacks at the default interval, if it advances the tick count, keeps the
times in step; it does so exactly if it is no early tick. -/
theorem InStep.step (hinStep : InStep dispatcher) (event : Event κ)
    (htime : ∀ timeNow, event = .handleTimerTick timeNow → 0 < timeNow) :
    (RunsDefaults dispatcher event ↔ NotEarly dispatcher event) ∧
      (RunsDefaults dispatcher event → InStep (step dispatcher event)) := by
  cases event with
  | registerTimerCbFun timerCbFun interval =>
    exact ⟨Iff.rfl, fun _ ↦ hinStep.registerTimerCbFun timerCbFun interval⟩
  | unregisterTimerCbFun timerCbFun =>
    exact ⟨Iff.rfl, fun _ ↦ hinStep.unregisterTimerCbFun timerCbFun⟩
  | setTimerResolution timerResolution =>
    exact ⟨Iff.rfl, fun _ ↦ hinStep.setTimerResolution timerResolution⟩
  | handleTimerTick timeNow =>
    exact ⟨hinStep.runsDefaults_handleTimerTick_iff (htime timeNow rfl),
      hinStep.handleTimerTick (htime timeNow rfl)⟩

omit [DecidableEq κ] in
/-- A tick of the run is at one of its times. -/
theorem mem_tickTimes {events : List (Event κ)} {timeNow : ℚ}
    (hmem : Event.handleTimerTick timeNow ∈ events) : timeNow ∈ tickTimes events :=
  List.mem_filterMap.mpr ⟨_, hmem, rfl⟩

variable {events : List (Event κ)}

/-- A call of a run whose ticks are at positive times. -/
theorem InStep.step_of_mem (hpositive : ∀ timeNow ∈ tickTimes events, 0 < timeNow)
    (hinStep : InStep dispatcher) {event : Event κ} (hmem : event ∈ events) :
    (RunsDefaults dispatcher event ↔ NotEarly dispatcher event) ∧
      (RunsDefaults dispatcher event → InStep (TimerTicks.step dispatcher event)) :=
  hinStep.step event fun timeNow hevent ↦ hpositive timeNow (mem_tickTimes (hevent ▸ hmem))

/-- Where every tick that is counted runs the callbacks at the default interval, they keep pace with
the ticks. -/
theorem keepsPace_of_runsDefaults (hpositive : ∀ timeNow ∈ tickTimes events, 0 < timeNow)
    (hruns : EveryStep step RunsDefaults init events) :
    KeepsPace (events.foldl step init) := by
  have hmem : EveryStep step (fun _ event ↦ event ∈ events) init events :=
    EveryStep.of_forall fun _ _ hmem ↦ hmem
  have hboth : EveryStep step
      (fun dispatcher event ↦ RunsDefaults dispatcher event ∧ event ∈ events) init events :=
    (EveryStep.congr hmem fun _ _ hhere ↦ (and_iff_left hhere).symm).mp hruns
  refine (EveryStep.foldl_invariant hboth (fun dispatcher ↦ InStep dispatcher ∧
    KeepsPace dispatcher) ⟨inStep_init, fun _ hmem ↦ absurd hmem List.not_mem_nil⟩ ?_).2
  rintro dispatcher event ⟨hinStep, hpace⟩ ⟨hhere, hevent⟩
  exact ⟨(hinStep.step_of_mem hpositive hevent).2 hhere, hpace.step hinStep hhere⟩

/-- Whatever is called on a new dispatcher, the ticks being at positive times, every tick that
advances the tick count runs every callback registered at the default interval exactly if no tick
is early, and then they keep pace with the ticks. -/
theorem everyStep_runsDefaults_iff (events : List (Event κ))
    (hpositive : ∀ timeNow ∈ tickTimes events, 0 < timeNow) :
    (EveryStep step RunsDefaults init events ↔ EveryStep step NotEarly init events) ∧
      (EveryStep step NotEarly init events → KeepsPace (events.foldl step init)) := by
  have hmem : EveryStep step (fun _ event ↦ event ∈ events) init events :=
    EveryStep.of_forall fun _ _ hmem ↦ hmem
  have hiff := EveryStep.iff_of_invariant hmem InStep inStep_init
    fun dispatcher event hinStep hevent ↦ hinStep.step_of_mem hpositive hevent
  exact ⟨hiff, fun hnotEarly ↦ keepsPace_of_runsDefaults hpositive (hiff.mpr hnotEarly)⟩

/-- A callback at the resolution of half a second, and ticks of which the last one comes twenty
milliseconds early. -/
def sampleEvents : List (Event Unit) :=
  [.registerTimerCbFun () none, .handleTimerTick 1, .handleTimerTick (3 / 2),
    .handleTimerTick (99 / 50)]

theorem tickTimes_sampleEvents : tickTimes sampleEvents = [1, 3 / 2, 99 / 50] :=
  rfl

theorem pos_of_mem_tickTimes_sampleEvents (timeNow : ℚ) (hmem : timeNow ∈ tickTimes sampleEvents) :
    0 < timeNow := by
  rw [tickTimes_sampleEvents] at hmem
  simp only [List.mem_cons, List.not_mem_nil, or_false] at hmem
  rcases hmem with rfl | rfl | rfl <;> norm_num

theorem everyStep_runsDefaults_iff_sampleEvents :
    (EveryStep step RunsDefaults init sampleEvents ↔ EveryStep step NotEarly init sampleEvents) ∧
      (EveryStep step NotEarly init sampleEvents → KeepsPace (sampleEvents.foldl step init)) :=
  everyStep_runsDefaults_iff sampleEvents pos_of_mem_tickTimes_sampleEvents

/-- The last tick is counted, and the callback is not run. -/
theorem not_everyStep_runsDefaults :
    ¬ ∀ events : List (Event Unit), (∀ timeNow ∈ tickTimes events, 0 < timeNow) →
      (tickTimes events).Pairwise (· ≤ ·) → EveryStep step RunsDefaults init events := by
  intro hall
  have hsorted : (tickTimes sampleEvents).Pairwise (· ≤ ·) := by
    rw [tickTimes_sampleEvents]
    norm_num
  have hruns := keepsPace_of_runsDefaults pos_of_mem_tickTimes_sampleEvents
    (hall sampleEvents pos_of_mem_tickTimes_sampleEvents hsorted)
  revert hruns
  unfold KeepsPace
  decide +kernel

end Pysnmp.Carrier.TimerTicks
