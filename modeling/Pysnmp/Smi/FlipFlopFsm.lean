import Pysnmp.Foundation.Effect
import Pysnmp.Smi.ManagedObjects

/-!
# The operations as a state machine

`MibInstrumController.flipFlopFsm`: a table says which phase follows which, a phase runs its handler
over the bindings in order until one raises an `SmiError`, and the first `SmiError` of all phases is
what the operation raises once the machine stops. Any other exception leaves the machine at once.

The tables of the three operations stop after at most six phases; `flipFlopFsm_fsmReadVar` and
`flipFlopFsm_fsmReadNextVar` write the machine out for the two that read.
-/

set_option autoImplicit false
set_option relaxedAutoImplicit false

namespace Pysnmp.Smi.FlipFlopFsm

open Foundation Foundation.Effect

/-- The phases, which are also the names of the handlers. -/
inductive FsmState
  | start
  | readTest
  | readGet
  | readTestNext
  | readGetNext
  | writeTest
  | writeCommit
  | writeCleanup
  | writeUndo
  | stop
  deriving DecidableEq, Repr

/-- How a phase ended. -/
inductive Status
  | ok
  | err
  deriving DecidableEq, Repr

/-- A table of phases; the state `none` stands for `"*"`. -/
abbrev FsmTable := List ((Option FsmState × Status) × FsmState)

/-- `fsmReadVar`. -/
def fsmReadVar : FsmTable :=
  [((some .start, .ok), .readTest), ((some .readTest, .ok), .readGet),
    ((some .readGet, .ok), .stop), ((none, .err), .stop)]

/-- `fsmReadNextVar`. -/
def fsmReadNextVar : FsmTable :=
  [((some .start, .ok), .readTestNext), ((some .readTestNext, .ok), .readGetNext),
    ((some .readGetNext, .ok), .stop), ((none, .err), .stop)]

/-- `fsmWriteVar`. -/
def fsmWriteVar : FsmTable :=
  [((some .start, .ok), .writeTest), ((some .writeTest, .ok), .writeCommit),
    ((some .writeCommit, .ok), .writeCleanup), ((some .writeCleanup, .ok), .readTest),
    ((some .readTest, .ok), .readGet), ((some .readGet, .ok), .stop),
    ((some .writeTest, .err), .writeCleanup), ((some .writeCommit, .err), .writeUndo),
    ((some .writeUndo, .ok), .readTest), ((some .readTest, .err), .stop),
    ((some .readGet, .err), .stop), ((none, .err), .stop)]

/-- The phase after a phase: by the state, and if it is not in the table by `"*"`. -/
def nextState (fsmTable : FsmTable) (state : FsmState) (status : Status) : Option FsmState :=
  match fsmTable.lookup (some state, status) with
  | some fsmState => some fsmState
  | none => fsmTable.lookup (none, status)

variable {σ β α : Type}

/-- Run a handler and take the `SmiError` it may raise as a value. -/
def catchSmiError (program : Effect σ MibException α) :
    Effect σ MibException (Except SmiError α) :=
  handle (Except.ok <$> program) fun
    | .smi error => pure (.error error)
    | .python error => raise (.python error)

/-- One phase: the handler over the bindings, in order, until one raises. The results so far are
kept. -/
def runPhase (handler : ℕ → β → Effect σ MibException (Option α)) :
    ℕ → List β → Effect σ MibException (List α × Option SmiError)
  | _, [] => pure ([], none)
  | idx, varBind :: varBinds => do
    match ← catchSmiError (handler idx varBind) with
    | .error error => pure ([], some error)
    | .ok rval => do
      let (outputVarBinds, exception) ← runPhase handler (idx + 1) varBinds
      pure (rval.toList ++ outputVarBinds, exception)

/-- The machine from a state on. Its tables are without cycles, so a bound on the number of phases
is never reached. -/
def flipFlopLoop (fsmTable : FsmTable)
    (handlers : FsmState → ℕ → β → Effect σ MibException (Option α)) (inputVarBinds : List β) :
    ℕ → FsmState → Status → Option SmiError → List α → Effect σ MibException (List α)
  | 0, _, _, _, _ => raise (.smi { kind := .smiError })
  | turns + 1, state, status, origExc, outputVarBinds =>
    match nextState fsmTable state status with
    | none => raise (.smi { kind := .smiError })
    | some .stop =>
      match origExc with
      | some error => raise (.smi error)
      | none => pure outputVarBinds
    | some fsmState => do
      let (rvals, exception) ← runPhase (handlers fsmState) 0 inputVarBinds
      flipFlopLoop fsmTable handlers inputVarBinds turns fsmState
        (if exception.isSome then .err else .ok) (origExc <|> exception) (outputVarBinds ++ rvals)

/-- `MibInstrumController.flipFlopFsm`. -/
def flipFlopFsm (fsmTable : FsmTable)
    (handlers : FsmState → ℕ → β → Effect σ MibException (Option α)) (inputVarBinds : List β) :
    Effect σ MibException (List α) :=
  flipFlopLoop fsmTable handlers inputVarBinds (fsmTable.length + 1) .start .ok none []

/-! ### A phase -/

theorem catchSmiError_run_of_ok {program : Effect σ MibException α} {state after : σ} {value : α}
    (hrun : program.run state = (.ok value, after)) :
    (catchSmiError program).run state = (.ok (.ok value), after) := by
  refine handle_run_of_ok ?_
  rw [map_eq_bind_pure_comp, bind_run_of_ok hrun]
  rfl

theorem catchSmiError_run_of_error {program : Effect σ MibException α} {state after : σ}
    {exception : MibException} (hrun : program.run state = (.error exception, after)) :
    (catchSmiError program).run state =
      match exception with
      | .smi error => (.ok (.error error), after)
      | .python error => (.error (.python error), after) := by
  have hmap : (Except.ok <$> program : Effect σ MibException (Except SmiError α)).run state =
      (.error exception, after) := by
    rw [map_eq_bind_pure_comp, bind_run_of_error hrun]
  rw [catchSmiError, handle_run_of_error hmap]
  cases exception <;> rfl

/-- A phase in which every handler returns, without changing the state, gives their results. -/
theorem runPhase_run_of_ok {handler : ℕ → β → Effect σ MibException (Option α)} {state : σ}
    {answer : β → Option α} {varBinds : List β} (idx : ℕ)
    (hhandler : ∀ idx, ∀ varBind ∈ varBinds,
      (handler idx varBind).run state = (.ok (answer varBind), state)) :
    (runPhase handler idx varBinds).run state = (.ok (varBinds.filterMap answer, none), state) := by
  induction varBinds generalizing idx with
  | nil => rfl
  | cons varBind varBinds ih =>
    have hrest := ih (idx + 1) fun idx other hother ↦
      hhandler idx other (List.mem_cons_of_mem _ hother)
    rw [runPhase, bind_run_of_ok (catchSmiError_run_of_ok (hhandler idx _ List.mem_cons_self))]
    simp only
    rw [bind_run_of_ok hrest, pure_run, List.filterMap_cons]
    cases answer varBind <;> rfl

/-- Run a step that reads only over the bindings, in order, up to the first exception. -/
def eachFrom {γ : Type} (step : ℕ → β → Except MibException γ) :
    ℕ → List β → Except MibException (List γ)
  | _, [] => .ok []
  | idx, varBind :: varBinds =>
    match step idx varBind with
    | .error exception => .error exception
    | .ok rval => (eachFrom step (idx + 1) varBinds).map fun rvals ↦ rval :: rvals

/-- What is made of each result afterwards can be made of them all at the end. -/
theorem eachFrom_map {γ δ : Type} (step : ℕ → β → Except MibException γ) (transform : γ → δ)
    (idx : ℕ) (varBinds : List β) :
    eachFrom (fun idx varBind ↦ (step idx varBind).map transform) idx varBinds =
      (eachFrom step idx varBinds).map (List.map transform) := by
  induction varBinds generalizing idx with
  | nil => rfl
  | cons varBind varBinds ih =>
    simp only [eachFrom, ih]
    cases step idx varBind with
    | error exception => rfl
    | ok rval => cases eachFrom step (idx + 1) varBinds <;> rfl

/-- Steps that agree on the bindings of a list agree on the list. -/
theorem eachFrom_map_of_eq {γ β' : Type} {step : ℕ → β → Except MibException γ}
    {other : ℕ → β' → Except MibException γ} {image : β' → β} {varBinds : List β'} (idx : ℕ)
    (hstep : ∀ idx, ∀ varBind ∈ varBinds, step idx (image varBind) = other idx varBind) :
    eachFrom step idx (varBinds.map image) = eachFrom other idx varBinds := by
  induction varBinds generalizing idx with
  | nil => rfl
  | cons varBind varBinds ih =>
    have hrest :=
      ih (idx + 1) fun idx later hlater ↦ hstep idx later (List.mem_cons_of_mem _ hlater)
    simp only [List.map_cons, eachFrom, hrest, hstep idx varBind List.mem_cons_self]

theorem eachFrom_of_ok {γ : Type} {step : ℕ → β → Except MibException γ} {answer : β → γ}
    {varBinds : List β} (idx : ℕ)
    (hstep : ∀ idx, ∀ varBind ∈ varBinds, step idx varBind = .ok (answer varBind)) :
    eachFrom step idx varBinds = .ok (varBinds.map answer) := by
  induction varBinds generalizing idx with
  | nil => rfl
  | cons varBind varBinds ih =>
    have hrest :=
      ih (idx + 1) fun idx other hother ↦ hstep idx other (List.mem_cons_of_mem _ hother)
    simp only [eachFrom, hstep idx varBind List.mem_cons_self, hrest, Except.map, List.map_cons]

/-- The first binding that raises decides. -/
theorem eachFrom_of_error {γ : Type} {step : ℕ → β → Except MibException γ} {answer : β → γ}
    {before after : List β} {varBind : β} {exception : MibException} (idx : ℕ)
    (hbefore : ∀ idx, ∀ varBind ∈ before, step idx varBind = .ok (answer varBind))
    (herror : step (idx + before.length) varBind = .error exception) :
    eachFrom step idx (before ++ varBind :: after) = .error exception := by
  induction before generalizing idx with
  | nil => simp only [List.nil_append, eachFrom, show step idx varBind = _ from herror]
  | cons first before ih =>
    have hrest := ih (idx + 1) (fun idx other hother ↦
      hbefore idx other (List.mem_cons_of_mem _ hother))
      (by rwa [List.length_cons, Nat.add_comm before.length, ← Nat.add_assoc] at herror)
    simp only [List.cons_append, eachFrom, hbefore idx first List.mem_cons_self, hrest, Except.map]

/-- If nothing is raised, each binding has its result. -/
theorem exists_of_eachFrom_eq_ok {γ : Type} {step : ℕ → β → Except MibException γ}
    {varBinds : List β} {idx : ℕ} {rvals : List γ}
    (hok : eachFrom step idx varBinds = .ok rvals) {varBind : β} (hmem : varBind ∈ varBinds) :
    ∃ position rval, step position varBind = .ok rval := by
  induction varBinds generalizing idx rvals with
  | nil => cases hmem
  | cons first varBinds ih =>
    rw [eachFrom] at hok
    cases hfirst : step idx first with
    | error exception =>
      rw [hfirst] at hok
      cases hok
    | ok rval =>
      rw [hfirst] at hok
      cases hrest : eachFrom step (idx + 1) varBinds with
      | error exception =>
        rw [hrest] at hok
        cases hok
      | ok rest =>
        rcases List.mem_cons.mp hmem with rfl | hlater
        · exact ⟨idx, rval, hfirst⟩
        · exact ih hrest hlater

/-- What is raised is raised by the first binding that does. -/
theorem exists_of_eachFrom_eq_error {γ : Type} {step : ℕ → β → Except MibException γ}
    {varBinds : List β} {idx : ℕ} {exception : MibException}
    (herror : eachFrom step idx varBinds = .error exception) :
    ∃ before varBind after, varBinds = before ++ varBind :: after ∧
      (∀ other ∈ before, ∃ position rval, step position other = .ok rval) ∧
      step (idx + before.length) varBind = .error exception := by
  induction varBinds generalizing idx with
  | nil => cases herror
  | cons first varBinds ih =>
    rw [eachFrom] at herror
    cases hfirst : step idx first with
    | error other =>
      rw [hfirst] at herror
      obtain rfl := Except.error.inj herror
      exact ⟨[], first, varBinds, rfl, by simp, hfirst⟩
    | ok rval =>
      rw [hfirst] at herror
      cases hrest : eachFrom step (idx + 1) varBinds with
      | ok rvals =>
        rw [hrest] at herror
        cases herror
      | error other =>
        rw [hrest] at herror
        obtain rfl := Except.error.inj herror
        obtain ⟨before, varBind, after, rfl, hbefore, hvarBind⟩ := ih hrest
        refine ⟨first :: before, varBind, after, rfl, ?_, ?_⟩
        · intro other hother
          rcases List.mem_cons.mp hother with rfl | hlater
          · exact ⟨idx, rval, hfirst⟩
          · exact hbefore other hlater
        · rwa [List.length_cons, Nat.add_comm before.length, ← Nat.add_assoc]

/-- A binding whose handler returns nothing leaves the phase to the others. -/
theorem runPhase_cons_of_none {handler : ℕ → β → Effect σ MibException (Option α)}
    {state after : σ} {varBind : β} {varBinds : List β} {idx : ℕ}
    (hhandler : (handler idx varBind).run state = (.ok none, after)) :
    (runPhase handler idx (varBind :: varBinds)).run state =
      (runPhase handler (idx + 1) varBinds).run after := by
  rw [runPhase, bind_run_of_ok (catchSmiError_run_of_ok hhandler)]
  simp only [Option.toList_none, List.nil_append, Prod.mk.eta]
  rw [bind_pure]

/-- A binding whose handler raises ends the phase. -/
theorem runPhase_cons_of_error {handler : ℕ → β → Effect σ MibException (Option α)}
    {state after : σ} {varBind : β} {varBinds : List β} {idx : ℕ} {error : SmiError}
    (hhandler : (handler idx varBind).run state = (.error (.smi error), after)) :
    (runPhase handler idx (varBind :: varBinds)).run state = (.ok ([], some error), after) := by
  rw [runPhase, bind_run_of_ok (catchSmiError_run_of_error hhandler)]
  rfl

/-- A phase of handlers that only read ends with their results, or with the first error. -/
theorem runPhase_run_of_reads {handler : ℕ → β → Effect σ MibException (Option α)} {state : σ}
    {step : ℕ → β → Except MibException (Option α)} {idx : ℕ} {varBinds : List β}
    (hhandler : ∀ idx varBind, (handler idx varBind).run state = (step idx varBind, state)) :
    match eachFrom step idx varBinds with
    | .ok rvals =>
      (runPhase handler idx varBinds).run state = (.ok (rvals.flatMap Option.toList, none), state)
    | .error (.smi error) =>
      ∃ rvals, (runPhase handler idx varBinds).run state = (.ok (rvals, some error), state)
    | .error (.python error) =>
      (runPhase handler idx varBinds).run state = (.error (.python error), state) := by
  induction varBinds generalizing idx with
  | nil => rfl
  | cons varBind varBinds ih =>
    have hfirst := hhandler idx varBind
    have hrest := @ih (idx + 1)
    rw [eachFrom]
    rcases hstep : step idx varBind with (error | error) | rval
    · rw [hstep] at hfirst
      exact ⟨[], runPhase_cons_of_error hfirst⟩
    · rw [hstep] at hfirst
      rw [runPhase, bind_run_of_error (catchSmiError_run_of_error hfirst)]
    · rw [hstep] at hfirst
      rw [runPhase, bind_run_of_ok (catchSmiError_run_of_ok hfirst)]
      rcases heach : eachFrom step (idx + 1) varBinds with (error | error) | rvals
      · rw [heach] at hrest
        obtain ⟨rvals, hrest⟩ := hrest
        exact ⟨rval.toList ++ rvals, bind_run_of_ok hrest⟩
      · rw [heach] at hrest
        exact bind_run_of_error hrest
      · rw [heach] at hrest
        exact bind_run_of_ok hrest

/-! ### The machine, phase by phase -/

/-- One binding: its handler returns. -/
theorem runPhase_singleton_of_ok {handler : ℕ → β → Effect σ MibException (Option α)}
    {state after : σ} {varBind : β} {rval : Option α}
    (hhandler : (handler 0 varBind).run state = (.ok rval, after)) :
    (runPhase handler 0 [varBind]).run state = (.ok (rval.toList, none), after) := by
  rw [runPhase, bind_run_of_ok (catchSmiError_run_of_ok hhandler)]
  simp only [runPhase, pure_bind, List.append_nil, pure_run]

/-- One binding: its handler raises. -/
theorem runPhase_singleton_of_error {handler : ℕ → β → Effect σ MibException (Option α)}
    {state after : σ} {varBind : β} {error : SmiError}
    (hhandler : (handler 0 varBind).run state = (.error (.smi error), after)) :
    (runPhase handler 0 [varBind]).run state = (.ok ([], some error), after) := by
  rw [runPhase, bind_run_of_ok (catchSmiError_run_of_error hhandler)]
  rfl

section Loop

variable {fsmTable : FsmTable} {handlers : FsmState → ℕ → β → Effect σ MibException (Option α)}
  {varBinds : List β} {turns : ℕ} {fsmState next : FsmState} {status : Status}
  {origExc exception : Option SmiError} {outputVarBinds rvals : List α} {state after : σ}

/-- The machine takes a phase and goes on from the state the phase leaves. -/
theorem flipFlopLoop_run_of_next (hnext : nextState fsmTable fsmState status = some next)
    (hstop : next ≠ .stop)
    (hphase : (runPhase (handlers next) 0 varBinds).run state = (.ok (rvals, exception), after)) :
    (flipFlopLoop fsmTable handlers varBinds (turns + 1) fsmState status origExc
        outputVarBinds).run state =
      (flipFlopLoop fsmTable handlers varBinds turns next
        (if exception.isSome then .err else .ok) (origExc <|> exception)
        (outputVarBinds ++ rvals)).run after := by
  rw [flipFlopLoop.eq_def]
  simp only [hnext]
  cases next with
  | stop => exact absurd rfl hstop
  | _ => exact bind_run_of_ok hphase

/-- What is no `SmiError` leaves the machine at once. -/
theorem flipFlopLoop_run_of_raise {raised : MibException}
    (hnext : nextState fsmTable fsmState status = some next) (hstop : next ≠ .stop)
    (hphase : (runPhase (handlers next) 0 varBinds).run state = (.error raised, after)) :
    (flipFlopLoop fsmTable handlers varBinds (turns + 1) fsmState status origExc
        outputVarBinds).run state = (.error raised, after) := by
  rw [flipFlopLoop.eq_def]
  simp only [hnext]
  cases next with
  | stop => exact absurd rfl hstop
  | _ => exact bind_run_of_error hphase

/-- The machine stops with the results of all phases, or raises the first error. -/
theorem flipFlopLoop_run_of_stop (hnext : nextState fsmTable fsmState status = some .stop) :
    (flipFlopLoop fsmTable handlers varBinds (turns + 1) fsmState status origExc
        outputVarBinds).run state =
      (match origExc with
        | some error => .error (.smi error)
        | none => .ok outputVarBinds, state) := by
  rw [flipFlopLoop.eq_def]
  simp only [hnext]
  cases origExc <;> rfl

end Loop

/-! ### The machines written out -/

/-- What the machine does after a phase that is the last one when it fails. -/
def orStop (exception : Option SmiError) (next : Effect σ MibException α) :
    Effect σ MibException α :=
  match exception with
  | some error => raise (.smi error)
  | none => next

/-- A phase of handlers that only read, up to the stop it may be. -/
theorem runPhase_orStop_run {γ : Type} {handler : ℕ → β → Effect σ MibException (Option α)}
    {state : σ} {step : ℕ → β → Except MibException (Option α)}
    (hhandler : ∀ idx varBind, (handler idx varBind).run state = (step idx varBind, state))
    (idx : ℕ) (varBinds : List β) (next : List α → Effect σ MibException γ) :
    (do
      let (rvals, exception) ← runPhase handler idx varBinds
      orStop exception (next rvals)).run state =
      match eachFrom step idx varBinds with
      | .ok rvals => (next (rvals.flatMap Option.toList)).run state
      | .error exception => (.error exception, state) := by
  induction varBinds generalizing idx next with
  | nil => rfl
  | cons varBind varBinds ih =>
    have hfirst := hhandler idx varBind
    rw [eachFrom, runPhase, bind_assoc]
    cases hstep : step idx varBind with
    | error exception =>
      rw [hstep] at hfirst
      cases exception with
      | smi error => rw [bind_run_of_ok (catchSmiError_run_of_error hfirst)]; rfl
      | python error => rw [bind_run_of_error (catchSmiError_run_of_error hfirst)]
    | ok rval =>
      rw [hstep] at hfirst
      have hrest := ih (idx + 1) fun rvals ↦ next (rval.toList ++ rvals)
      rw [bind_run_of_ok (catchSmiError_run_of_ok hfirst)]
      simp only [bind_assoc, pure_bind]
      rw [hrest]
      cases eachFrom step (idx + 1) varBinds <;> rfl

/-- GET: the tests, then the answers. -/
theorem flipFlopFsm_fsmReadVar
    (handlers : FsmState → ℕ → β → Effect σ MibException (Option α)) (varBinds : List β) :
    flipFlopFsm fsmReadVar handlers varBinds = (do
      let (tests, testError) ← runPhase (handlers .readTest) 0 varBinds
      orStop testError do
        let (answers, error) ← runPhase (handlers .readGet) 0 varBinds
        orStop error (pure (tests ++ answers))) := by
  refine bind_congr fun ⟨tests, testError⟩ ↦ ?_
  cases testError with
  | some error => rfl
  | none =>
    refine bind_congr fun ⟨answers, error⟩ ↦ ?_
    cases error <;> rfl

/-- GETNEXT: the tests, then the answers. -/
theorem flipFlopFsm_fsmReadNextVar
    (handlers : FsmState → ℕ → β → Effect σ MibException (Option α)) (varBinds : List β) :
    flipFlopFsm fsmReadNextVar handlers varBinds = (do
      let (tests, testError) ← runPhase (handlers .readTestNext) 0 varBinds
      orStop testError do
        let (answers, error) ← runPhase (handlers .readGetNext) 0 varBinds
        orStop error (pure (tests ++ answers))) := by
  refine bind_congr fun ⟨tests, testError⟩ ↦ ?_
  cases testError with
  | some error => rfl
  | none =>
    refine bind_congr fun ⟨answers, error⟩ ↦ ?_
    cases error <;> rfl

end Pysnmp.Smi.FlipFlopFsm
