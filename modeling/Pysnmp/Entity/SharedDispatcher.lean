import Mathlib.Data.Finset.Basic
import Pysnmp.Foundation.Effect
import Pysnmp.Foundation.Run

/-!
# A dispatcher shared by receivers

`registerTransportDispatcher` and `unregisterTransportDispatcher` of `entity/engine.py`, over the
tables of callbacks of `AbstractTransportDispatcher`. Receivers are registered under identifiers of
their own, but the engine has its timer callback and its reference to the dispatcher once, and lets
go of both at the first receiver that is unregistered.

`everyStep_shared_iff`: after every call of a sequence the receivers that are registered have their
dispatcher and its timer exactly if no call unregisters a receiver while another one is registered.
-/

set_option autoImplicit false
set_option relaxedAutoImplicit false

namespace Pysnmp.Entity.SharedDispatcher

open Foundation Foundation.Effect

/-! ### Callbacks of a dispatcher -/

/-- The functions that are called at timer ticks: the engine's, and those of applications. -/
inductive TimerFunction
  | receiveTimerTick
  | application (number : ℕ)
  deriving DecidableEq, Repr

/-- The callbacks of a dispatcher: the identifiers of the receivers with a callback for messages
and with one for errors of transports, and the timer functions. -/
structure TransportDispatcher (ρ : Type) where
  recvCallables : Finset ρ
  errorCallables : Finset ρ
  timerCallables : List TimerFunction

/-- How a call fails. -/
inductive DispatcherError
  | dispatcherAlreadyRegistered
  | dispatcherNotRegistered
  | recvCallbackAlreadyRegistered
  | errorCallbackAlreadyRegistered
  deriving DecidableEq, Repr

/-- An engine, and the dispatchers there are. -/
structure Engine (ρ δ : Type) where
  transportDispatcher : Option δ
  dispatchers : δ → TransportDispatcher ρ

variable {ρ δ : Type} [DecidableEq ρ] [DecidableEq δ]

/-- Methods of a dispatcher. -/
abbrev DispatcherOp (ρ α : Type) := Effect (TransportDispatcher ρ) DispatcherError α

/-- `registerRecvCbFun`. -/
def registerRecvCbFun (recvId : ρ) : DispatcherOp ρ Unit := do
  let dispatcher ← get
  if recvId ∈ dispatcher.recvCallables then
    raise .recvCallbackAlreadyRegistered
  else
    modify fun dispatcher ↦
      { dispatcher with recvCallables := insert recvId dispatcher.recvCallables }

/-- `unregisterRecvCbFun`. -/
def unregisterRecvCbFun (recvId : ρ) : DispatcherOp ρ Unit :=
  modify fun dispatcher ↦
    { dispatcher with recvCallables := dispatcher.recvCallables.erase recvId }

/-- `registerErrorCbFun`. -/
def registerErrorCbFun (recvId : ρ) : DispatcherOp ρ Unit := do
  let dispatcher ← get
  if recvId ∈ dispatcher.errorCallables then
    raise .errorCallbackAlreadyRegistered
  else
    modify fun dispatcher ↦
      { dispatcher with errorCallables := insert recvId dispatcher.errorCallables }

/-- `unregisterErrorCbFun`. -/
def unregisterErrorCbFun (recvId : ρ) : DispatcherOp ρ Unit :=
  modify fun dispatcher ↦
    { dispatcher with errorCallables := dispatcher.errorCallables.erase recvId }

/-- `registerTimerCbFun`. -/
def registerTimerCbFun (timerCbFun : TimerFunction) : DispatcherOp ρ Unit :=
  modify fun dispatcher ↦
    { dispatcher with timerCallables := dispatcher.timerCallables ++ [timerCbFun] }

/-- `unregisterTimerCbFun`: one function, or all of them. -/
def unregisterTimerCbFun (timerCbFun : Option TimerFunction) : DispatcherOp ρ Unit :=
  modify fun dispatcher ↦
    { dispatcher with
      timerCallables := match timerCbFun with
        | some timerCbFun => dispatcher.timerCallables.erase timerCbFun
        | none => [] }

/-! ### The engine -/

/-- Methods of the engine. -/
abbrev EngineOp (ρ δ α : Type) := Effect (Engine ρ δ) DispatcherError α

/-- Run a method of a dispatcher. -/
def onDispatcher (dispatcher : δ) (program : DispatcherOp ρ Unit) : EngineOp ρ δ Unit :=
  focus (fun engine ↦ engine.dispatchers dispatcher)
    (fun changed engine ↦
      { engine with dispatchers := Function.update engine.dispatchers dispatcher changed })
    program

/-- `registerTransportDispatcher`. -/
def registerTransportDispatcher (transportDispatcher : δ) (recvId : ρ) : EngineOp ρ δ Unit := do
  let engine ← get
  if engine.transportDispatcher ≠ none ∧
      engine.transportDispatcher ≠ some transportDispatcher then
    raise .dispatcherAlreadyRegistered
  else do
    onDispatcher transportDispatcher (registerRecvCbFun recvId)
    onDispatcher transportDispatcher (registerErrorCbFun recvId)
    if engine.transportDispatcher = none then
      onDispatcher transportDispatcher (registerTimerCbFun .receiveTimerTick)
      modify fun engine ↦ { engine with transportDispatcher := some transportDispatcher }

/-- `unregisterTransportDispatcher`. -/
def unregisterTransportDispatcher (recvId : ρ) : EngineOp ρ δ Unit := do
  let engine ← get
  match engine.transportDispatcher with
  | none => raise .dispatcherNotRegistered
  | some transportDispatcher => do
    onDispatcher transportDispatcher (unregisterRecvCbFun recvId)
    onDispatcher transportDispatcher (unregisterErrorCbFun recvId)
    onDispatcher transportDispatcher (unregisterTimerCbFun none)
    modify fun engine ↦ { engine with transportDispatcher := none }

/-! ### Sequences of calls -/

/-- A call of an application. -/
inductive Call (ρ δ : Type)
  | register (transportDispatcher : δ) (recvId : ρ)
  | unregister (recvId : ρ)

/-- The engine after a call, whether it raised or not. -/
def step (engine : Engine ρ δ) : Call ρ δ → Engine ρ δ
  | .register transportDispatcher recvId =>
    ((registerTransportDispatcher transportDispatcher recvId).run engine).2
  | .unregister recvId => ((unregisterTransportDispatcher recvId).run engine).2

/-- As long as a receiver is registered the engine keeps its dispatcher and has one timer callback
on it; with the last receiver both are gone. -/
structure Shared (engine : Engine ρ δ) : Prop where
  kept : ∀ dispatcher, (engine.dispatchers dispatcher).recvCallables.Nonempty →
    engine.transportDispatcher = some dispatcher ∧
      (engine.dispatchers dispatcher).timerCallables.count .receiveTimerTick = 1
  released : (∀ dispatcher, (engine.dispatchers dispatcher).recvCallables = ∅) →
    engine.transportDispatcher = none ∧
      ∀ dispatcher, .receiveTimerTick ∉ (engine.dispatchers dispatcher).timerCallables

/-- A call unregisters a receiver only if no other one is registered. -/
def UnregistersLast (engine : Engine ρ δ) : Call ρ δ → Prop
  | .register _ _ => True
  | .unregister recvId =>
    ∀ dispatcher, ∀ other ∈ (engine.dispatchers dispatcher).recvCallables, other = recvId

/-- An engine without a dispatcher, and dispatchers without receivers and without the engine's
timer callback. -/
structure Unattached (engine : Engine ρ δ) : Prop where
  transportDispatcher : engine.transportDispatcher = none
  recvCallables : ∀ dispatcher, (engine.dispatchers dispatcher).recvCallables = ∅
  errorCallables : ∀ dispatcher, (engine.dispatchers dispatcher).errorCallables = ∅
  timerCallables : ∀ dispatcher,
    .receiveTimerTick ∉ (engine.dispatchers dispatcher).timerCallables

/-! ### What a call does -/

section Dispatchers

variable {ρ δ : Type} [DecidableEq δ]

/-- A dispatcher is replaced. -/
def Engine.setDispatcher (engine : Engine ρ δ) (dispatcher : δ)
    (changed : TransportDispatcher ρ) : Engine ρ δ :=
  { engine with dispatchers := Function.update engine.dispatchers dispatcher changed }

@[simp] theorem Engine.setDispatcher_apply (engine : Engine ρ δ) (dispatcher : δ)
    (changed : TransportDispatcher ρ) :
    (engine.setDispatcher dispatcher changed).dispatchers dispatcher = changed :=
  Function.update_self ..

@[simp] theorem Engine.setDispatcher_self (engine : Engine ρ δ) (dispatcher : δ) :
    engine.setDispatcher dispatcher (engine.dispatchers dispatcher) = engine := by
  simp [Engine.setDispatcher]

theorem onDispatcher_run {dispatcher : δ} {program : DispatcherOp ρ Unit} {engine : Engine ρ δ}
    {result : Except DispatcherError Unit} {changed : TransportDispatcher ρ}
    (hrun : program.run (engine.dispatchers dispatcher) = (result, changed)) :
    (onDispatcher dispatcher program).run engine =
      (result, engine.setDispatcher dispatcher changed) := by
  rw [onDispatcher, focus_run, hrun]
  rfl

end Dispatchers

section Receivers

variable {ρ : Type} [DecidableEq ρ] {dispatcher : TransportDispatcher ρ} {recvId : ρ}

theorem registerRecvCbFun_run_of_mem (hmem : recvId ∈ dispatcher.recvCallables) :
    (registerRecvCbFun recvId).run dispatcher =
      (.error .recvCallbackAlreadyRegistered, dispatcher) := by
  rw [registerRecvCbFun, bind_run_of_ok (get_run dispatcher), if_pos hmem, raise_run]

theorem registerRecvCbFun_run_of_not_mem (hnew : recvId ∉ dispatcher.recvCallables) :
    (registerRecvCbFun recvId).run dispatcher = (.ok (),
      { dispatcher with recvCallables := insert recvId dispatcher.recvCallables }) := by
  rw [registerRecvCbFun, bind_run_of_ok (get_run dispatcher), if_neg hnew, modify_run]

theorem registerErrorCbFun_run_of_not_mem (hnew : recvId ∉ dispatcher.errorCallables) :
    (registerErrorCbFun recvId).run dispatcher = (.ok (),
      { dispatcher with errorCallables := insert recvId dispatcher.errorCallables }) := by
  rw [registerErrorCbFun, bind_run_of_ok (get_run dispatcher), if_neg hnew, modify_run]

end Receivers

section Calls

variable {engine : Engine ρ δ} {transportDispatcher : δ} {recvId : ρ}

/-- The callbacks with those of one more receiver, and timer functions. -/
def TransportDispatcher.attach (dispatcher : TransportDispatcher ρ) (recvId : ρ)
    (timers : List TimerFunction) : TransportDispatcher ρ where
  recvCallables := insert recvId dispatcher.recvCallables
  errorCallables := insert recvId dispatcher.errorCallables
  timerCallables := dispatcher.timerCallables ++ timers

/-- The callbacks without those of a receiver and without timer functions. -/
def TransportDispatcher.detach (dispatcher : TransportDispatcher ρ) (recvId : ρ) :
    TransportDispatcher ρ where
  recvCallables := dispatcher.recvCallables.erase recvId
  errorCallables := dispatcher.errorCallables.erase recvId
  timerCallables := []

/-- A receiver is refused where the engine has another dispatcher or the identifier is in use. -/
theorem step_register_of_refused
    (hrefused : engine.transportDispatcher ≠ none ∧
        engine.transportDispatcher ≠ some transportDispatcher ∨
      recvId ∈ (engine.dispatchers transportDispatcher).recvCallables) :
    step engine (.register transportDispatcher recvId) = engine := by
  rw [step, registerTransportDispatcher, bind_run_of_ok (get_run engine)]
  by_cases hother : engine.transportDispatcher ≠ none ∧
      engine.transportDispatcher ≠ some transportDispatcher
  · rw [if_pos hother, raise_run]
  · have hrun := onDispatcher_run (registerRecvCbFun_run_of_mem (hrefused.resolve_left hother))
    rw [if_neg hother, bind_run_of_error hrun, Engine.setDispatcher_self]

/-- Where it is not, the receiver gets its callbacks, and the first one brings the timer. -/
theorem step_register_of_accepted
    (haccepted : engine.transportDispatcher = none ∨
      engine.transportDispatcher = some transportDispatcher)
    (hrecv : recvId ∉ (engine.dispatchers transportDispatcher).recvCallables)
    (herror : recvId ∉ (engine.dispatchers transportDispatcher).errorCallables) :
    step engine (.register transportDispatcher recvId) =
      { transportDispatcher := some transportDispatcher
        dispatchers := Function.update engine.dispatchers transportDispatcher
          ((engine.dispatchers transportDispatcher).attach recvId
            (if engine.transportDispatcher = none then [.receiveTimerTick] else [])) } := by
  have hother : ¬ (engine.transportDispatcher ≠ none ∧
      engine.transportDispatcher ≠ some transportDispatcher) := by
    rintro ⟨hsome, hnot⟩
    exact haccepted.elim hsome hnot
  let dispatcher := engine.dispatchers transportDispatcher
  let received := engine.setDispatcher transportDispatcher
    { dispatcher with recvCallables := insert recvId dispatcher.recvCallables }
  have hsame : received.dispatchers transportDispatcher =
      { dispatcher with recvCallables := insert recvId dispatcher.recvCallables } :=
    Engine.setDispatcher_apply _ _ _
  have hkept : recvId ∉ (received.dispatchers transportDispatcher).errorCallables := by
    rw [hsame]
    exact herror
  have hfirst : (onDispatcher transportDispatcher (registerRecvCbFun recvId)).run engine =
      (.ok (), received) :=
    onDispatcher_run (registerRecvCbFun_run_of_not_mem hrecv)
  have hsecond := onDispatcher_run (registerErrorCbFun_run_of_not_mem hkept)
  rw [step, registerTransportDispatcher, bind_run_of_ok (get_run engine), if_neg hother,
    bind_run_of_ok hfirst, bind_run_of_ok hsecond]
  split_ifs with hnone
  · rw [bind_run_of_ok (onDispatcher_run rfl), modify_run]
    simp [received, dispatcher, Engine.setDispatcher, TransportDispatcher.attach]
  · have hattached := haccepted.resolve_left hnone
    simp [received, dispatcher, Engine.setDispatcher, TransportDispatcher.attach, hattached]

/-- The dispatcher loses the receiver and all timer functions, and the engine the dispatcher. -/
theorem step_unregister_of_some (hsome : engine.transportDispatcher = some transportDispatcher) :
    step engine (.unregister recvId) =
      { transportDispatcher := none
        dispatchers := Function.update engine.dispatchers transportDispatcher
          ((engine.dispatchers transportDispatcher).detach recvId) } := by
  rw [step, unregisterTransportDispatcher, bind_run_of_ok (get_run engine), hsome]
  dsimp only
  rw [bind_run_of_ok (onDispatcher_run rfl), bind_run_of_ok (onDispatcher_run rfl),
    bind_run_of_ok (onDispatcher_run rfl), modify_run]
  simp [Engine.setDispatcher, TransportDispatcher.detach]

theorem step_unregister_of_none (hnone : engine.transportDispatcher = none) :
    step engine (.unregister recvId : Call ρ δ) = engine := by
  rw [step, unregisterTransportDispatcher, bind_run_of_ok (get_run engine), hnone]
  rfl

end Calls

/-! ### The invariant -/

section Invariant

variable {ρ δ : Type} {engine : Engine ρ δ} {transportDispatcher : δ}

/-- The receivers are served, each has both callbacks, and the engine's timer callback is on its own
dispatcher only. -/
structure Consistent (engine : Engine ρ δ) : Prop where
  shared : Shared engine
  errorCallables_eq : ∀ dispatcher, (engine.dispatchers dispatcher).errorCallables =
    (engine.dispatchers dispatcher).recvCallables
  timer_absent : ∀ dispatcher, engine.transportDispatcher ≠ some dispatcher →
    TimerFunction.receiveTimerTick ∉ (engine.dispatchers dispatcher).timerCallables

theorem Unattached.consistent (hunattached : Unattached engine) : Consistent engine where
  shared :=
    { kept := by
        intro dispatcher hnonempty
        rw [hunattached.recvCallables] at hnonempty
        exact absurd hnonempty Finset.not_nonempty_empty
      released := fun _ ↦ ⟨hunattached.transportDispatcher, hunattached.timerCallables⟩ }
  errorCallables_eq := fun dispatcher ↦
    (hunattached.errorCallables dispatcher).trans (hunattached.recvCallables dispatcher).symm
  timer_absent := fun dispatcher _ ↦ hunattached.timerCallables dispatcher

/-- Without a dispatcher no receiver is registered. -/
theorem Shared.recvCallables_of_none (hshared : Shared engine)
    (hnone : engine.transportDispatcher = none) (dispatcher : δ) :
    (engine.dispatchers dispatcher).recvCallables = ∅ := by
  rw [← Finset.not_nonempty_iff_eq_empty]
  intro hnonempty
  have hsome := (hshared.kept dispatcher hnonempty).1
  rw [hnone] at hsome
  cases hsome

/-- With one, the receivers are its own, and there is at least one of them. -/
theorem Shared.recvCallables_of_some (hshared : Shared engine)
    (hsome : engine.transportDispatcher = some transportDispatcher) :
    (engine.dispatchers transportDispatcher).recvCallables.Nonempty ∧
      ∀ other ≠ transportDispatcher, (engine.dispatchers other).recvCallables = ∅ := by
  have hothers : ∀ other ≠ transportDispatcher,
      (engine.dispatchers other).recvCallables = ∅ := by
    intro other hother
    rw [← Finset.not_nonempty_iff_eq_empty]
    intro hnonempty
    have hown := (hshared.kept other hnonempty).1
    rw [hsome] at hown
    exact hother (Option.some.inj hown).symm
  refine ⟨Finset.nonempty_iff_ne_empty.mpr fun hempty ↦ ?_, hothers⟩
  have hnone := (hshared.released fun dispatcher ↦ by
    by_cases hown : dispatcher = transportDispatcher
    · rw [hown, hempty]
    · exact hothers dispatcher hown).1
  rw [hsome] at hnone
  cases hnone

/-- Only the dispatcher attached has receivers. -/
theorem Consistent.recvCallables_of_ne (hconsistent : Consistent engine)
    (haccepted : engine.transportDispatcher = none ∨
      engine.transportDispatcher = some transportDispatcher) {other : δ}
    (hother : other ≠ transportDispatcher) : (engine.dispatchers other).recvCallables = ∅ := by
  rcases haccepted with hnone | hsome
  · exact hconsistent.shared.recvCallables_of_none hnone other
  · exact (hconsistent.shared.recvCallables_of_some hsome).2 other hother

/-- A dispatcher that a receiver is registered with has the timer function once. -/
theorem Consistent.count_timerCallables (hconsistent : Consistent engine)
    (haccepted : engine.transportDispatcher = none ∨
      engine.transportDispatcher = some transportDispatcher) :
    ((engine.dispatchers transportDispatcher).timerCallables ++
      if engine.transportDispatcher = none then [TimerFunction.receiveTimerTick] else []).count
        TimerFunction.receiveTimerTick = 1 := by
  rw [List.count_append]
  rcases haccepted with hnone | hsome
  · have habsent := hconsistent.timer_absent transportDispatcher (by simp [hnone])
    rw [if_pos hnone, List.count_eq_zero_of_not_mem habsent]
    rfl
  · have hnonempty := (hconsistent.shared.recvCallables_of_some hsome).1
    rw [if_neg (by rw [hsome]; exact Option.some_ne_none _),
      (hconsistent.shared.kept transportDispatcher hnonempty).2]
    rfl

end Invariant

/-! ### What a call keeps -/

section Runs

variable {engine : Engine ρ δ}

/-- A registration leaves the receivers served, the new one among them. -/
theorem Consistent.register (hconsistent : Consistent engine) (transportDispatcher : δ)
    (recvId : ρ) : Consistent (step engine (.register transportDispatcher recvId)) := by
  by_cases hrefused : engine.transportDispatcher ≠ none ∧
        engine.transportDispatcher ≠ some transportDispatcher ∨
      recvId ∈ (engine.dispatchers transportDispatcher).recvCallables
  · rw [step_register_of_refused hrefused]
    exact hconsistent
  · push Not at hrefused
    obtain ⟨hattached, hrecv⟩ := hrefused
    have haccepted := or_iff_not_imp_left.mpr hattached
    have herror : recvId ∉ (engine.dispatchers transportDispatcher).errorCallables := by
      rw [hconsistent.errorCallables_eq]
      exact hrecv
    rw [step_register_of_accepted haccepted hrecv herror]
    refine ⟨⟨fun dispatcher hnonempty ↦ ?_, fun hempty ↦ ?_⟩, fun dispatcher ↦ ?_,
      fun dispatcher hne ↦ ?_⟩
    · by_cases hown : dispatcher = transportDispatcher
      · subst hown
        dsimp only
        rw [Function.update_self]
        exact ⟨rfl, hconsistent.count_timerCallables haccepted⟩
      · dsimp only at hnonempty
        rw [Function.update_of_ne hown, hconsistent.recvCallables_of_ne haccepted hown]
          at hnonempty
        exact absurd hnonempty Finset.not_nonempty_empty
    · have hnew := hempty transportDispatcher
      dsimp only at hnew
      rw [Function.update_self] at hnew
      exact absurd hnew (Finset.insert_ne_empty _ _)
    · dsimp only
      by_cases hown : dispatcher = transportDispatcher
      · subst hown
        rw [Function.update_self]
        exact congrArg (insert recvId) (hconsistent.errorCallables_eq _)
      · rw [Function.update_of_ne hown]
        exact hconsistent.errorCallables_eq dispatcher
    · have hown : dispatcher ≠ transportDispatcher := fun heq ↦ hne (congrArg some heq.symm)
      dsimp only
      rw [Function.update_of_ne hown]
      refine hconsistent.timer_absent dispatcher fun hother ↦ ?_
      rcases haccepted with hnone | hsome
      · rw [hnone] at hother
        cases hother
      · exact hown (Option.some.inj (hother.symm.trans hsome))

/-- A receiver that is left on some dispatcher was registered there and was not unregistered. -/
theorem mem_recvCallables_detach_iff (transportDispatcher : δ) {dispatcher : δ}
    {recvId remaining : ρ} :
    remaining ∈ (Function.update engine.dispatchers transportDispatcher
        ((engine.dispatchers transportDispatcher).detach recvId) dispatcher).recvCallables ↔
      remaining ∈ (engine.dispatchers dispatcher).recvCallables ∧
        (dispatcher = transportDispatcher → remaining ≠ recvId) := by
  by_cases hown : dispatcher = transportDispatcher
  · subst hown
    rw [Function.update_self, TransportDispatcher.detach, Finset.mem_erase]
    exact ⟨fun hboth ↦ ⟨hboth.2, fun _ ↦ hboth.1⟩, fun hboth ↦ ⟨hboth.2 rfl, hboth.1⟩⟩
  · rw [Function.update_of_ne hown]
    exact ⟨fun hmem ↦ ⟨hmem, fun heq ↦ absurd heq hown⟩, And.left⟩

/-- Without its dispatcher the engine has no timer callback. -/
theorem Consistent.timer_absent_detach (hconsistent : Consistent engine) {transportDispatcher : δ}
    (hattached : engine.transportDispatcher = some transportDispatcher) (recvId : ρ)
    (dispatcher : δ) :
    TimerFunction.receiveTimerTick ∉ (Function.update engine.dispatchers transportDispatcher
      ((engine.dispatchers transportDispatcher).detach recvId) dispatcher).timerCallables := by
  by_cases hown : dispatcher = transportDispatcher
  · rw [hown, Function.update_self]
    exact List.not_mem_nil
  · rw [Function.update_of_ne hown]
    refine hconsistent.timer_absent dispatcher fun heq ↦ hown ?_
    exact Option.some.inj (heq.symm.trans hattached)

/-- A receiver loses both of its callbacks. -/
theorem Consistent.errorCallables_detach (hconsistent : Consistent engine)
    (transportDispatcher : δ) (recvId : ρ) (dispatcher : δ) :
    (Function.update engine.dispatchers transportDispatcher
        ((engine.dispatchers transportDispatcher).detach recvId) dispatcher).errorCallables =
      (Function.update engine.dispatchers transportDispatcher
        ((engine.dispatchers transportDispatcher).detach recvId) dispatcher).recvCallables := by
  by_cases hown : dispatcher = transportDispatcher
  · rw [hown, Function.update_self]
    exact congrArg (Finset.erase · recvId) (hconsistent.errorCallables_eq transportDispatcher)
  · rw [Function.update_of_ne hown]
    exact hconsistent.errorCallables_eq dispatcher

/-- When a receiver is unregistered, those that remain are served exactly if there are none. -/
theorem Consistent.unregister (hconsistent : Consistent engine) (recvId : ρ) :
    (Shared (step engine (.unregister recvId)) ↔ UnregistersLast engine (.unregister recvId)) ∧
      (Shared (step engine (.unregister recvId)) →
        Consistent (step engine (.unregister recvId))) := by
  cases hattached : engine.transportDispatcher with
  | none =>
    have hempty := hconsistent.shared.recvCallables_of_none hattached
    rw [step_unregister_of_none hattached]
    refine ⟨iff_of_true hconsistent.shared fun dispatcher other hother ↦ ?_, fun _ ↦ hconsistent⟩
    rw [hempty] at hother
    cases hother
  | some transportDispatcher =>
    obtain ⟨-, hothers⟩ := hconsistent.shared.recvCallables_of_some hattached
    have htimer := hconsistent.timer_absent_detach hattached recvId
    rw [step_unregister_of_some hattached]
    refine ⟨⟨fun hshared dispatcher remaining hremaining ↦ ?_, fun hlast ↦ ⟨?_, ?_⟩⟩,
      fun hshared ↦ ⟨hshared, hconsistent.errorCallables_detach transportDispatcher recvId,
        fun dispatcher _ ↦ htimer dispatcher⟩⟩
    · -- a receiver that is left would keep the dispatcher, which is gone
      by_contra hne
      have hleft := (mem_recvCallables_detach_iff transportDispatcher).mpr
        ⟨hremaining, fun _ ↦ hne⟩
      cases (hshared.kept dispatcher ⟨remaining, hleft⟩).1
    · rintro dispatcher ⟨remaining, hremaining⟩
      obtain ⟨hmem, hkept⟩ := (mem_recvCallables_detach_iff transportDispatcher).mp hremaining
      by_cases hown : dispatcher = transportDispatcher
      · exact absurd (hlast dispatcher remaining hmem) (hkept hown)
      · rw [hothers dispatcher hown] at hmem
        cases hmem
    · exact fun _ ↦ ⟨rfl, htimer⟩

/-- After every call of a sequence the receivers that are registered are served exactly if no call
unregisters a receiver while another one is registered. -/
theorem everyStep_shared_iff (hunattached : Unattached engine) (calls : List (Call ρ δ)) :
    EveryStep step (fun engine call ↦ Shared (step engine call)) engine calls ↔
      EveryStep step UnregistersLast engine calls := by
  have hcalls : EveryStep step (fun _ _ ↦ True) engine calls :=
    EveryStep.of_forall fun _ _ _ ↦ trivial
  refine EveryStep.iff_of_invariant hcalls Consistent hunattached.consistent
    fun engine call hconsistent _ ↦ ?_
  cases call with
  | register transportDispatcher recvId =>
    have hnext := hconsistent.register transportDispatcher recvId
    exact ⟨iff_of_true hnext.shared trivial, fun _ ↦ hnext⟩
  | unregister recvId => exact hconsistent.unregister recvId

end Runs

/-! ### Two receivers -/

/-- A dispatcher without callbacks, and an engine that has not seen it. -/
def newEngine : Engine ℕ Unit where
  transportDispatcher := none
  dispatchers := fun _ ↦ ⟨∅, ∅, []⟩

theorem unattached_newEngine : Unattached newEngine :=
  ⟨rfl, fun _ ↦ rfl, fun _ ↦ rfl, fun _ ↦ List.not_mem_nil⟩

/-- Two receivers are registered, and the first is unregistered. -/
def sampleCalls : List (Call ℕ Unit) :=
  [.register () 1, .register () 2, .unregister 1]

theorem everyStep_shared_iff_sampleCalls :
    EveryStep step (fun engine call ↦ Shared (step engine call)) newEngine sampleCalls ↔
      EveryStep step UnregistersLast newEngine sampleCalls :=
  everyStep_shared_iff unattached_newEngine sampleCalls

/-- The second one is left without the dispatcher's timer. -/
theorem not_everyStep_shared :
    ¬ ∀ (engine : Engine ℕ Unit) (calls : List (Call ℕ Unit)), Unattached engine →
      EveryStep step (fun engine call ↦ Shared (step engine call)) engine calls := by
  intro hshared
  obtain ⟨-, -, hlast, -⟩ := hshared newEngine sampleCalls unattached_newEngine
  have hremains : 2 ∈ ((step (step (step newEngine (.register () 1)) (.register () 2))
      (.unregister 1)).dispatchers ()).recvCallables := by
    decide
  cases (hlast.kept () ⟨2, hremains⟩).1

end Pysnmp.Entity.SharedDispatcher
