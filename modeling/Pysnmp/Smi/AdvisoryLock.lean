import Pysnmp.Foundation.Run
import Pysnmp.Smi.ReadVars

/-!
# Advisory locks

SETs of a writable instance whose syntax is `TestAndIncr` of `SNMPv2-TC.py`. A SET runs the phases
of the write from the root of the tree down to the instance, and then the reads. Whatever scalar or
column the instance belongs to, a phase comes to what the instance does, and leaves all others alone
(`write_run`), so one SET is computed once (`response_of_not_opens`, `response_of_opens`).

The instance takes a value from the one it holds to the next, and from 2147483646 to 0. It refuses
every other value, and the value 2147483647 also when it holds that one, and it is the instance that
re-labels what its syntax raises for it, so that the error is `wrongValue`.
-/

set_option autoImplicit false
set_option relaxedAutoImplicit false

namespace Pysnmp.Smi.AdvisoryLock

open Foundation Foundation.Effect Proto FlipFlopFsm ColumnWrite WriteVars ReadVars
open InstanceWrite (mibError)

/-- The syntax class is `TestAndIncr`. -/
structure IsTestAndIncr (syntaxClass : SyntaxClass) : Prop where
  kind : syntaxClass.kind = .testAndIncr
  clone : ∀ value, syntaxClass.clone (.integer value) =
    if 0 ≤ value ∧ value ≤ 2147483647 then some (.integer value) else none

/-- The name of an instance, with the writable scalar or column it belongs to. -/
structure Lock (tree : MibTree) where
  name : Oid
  id : ObjectId
  object : ManagedObject
  tested : tested tree name = .object object
  covering : covering tree name = some id
  name_ne : name ≠ object.name
  writable : object.maxAccess.isWritable = true

/-- A SET of the instance, by a manager who may write it. -/
structure SetRequest (name : Oid) where
  acFun : Option AccessFunction
  value : Value
  mayWrite : ∀ ask ∈ acFun, ask name .write = .permitted

variable {tree : MibTree}

/-- What the SET answers, and the state after it. -/
def response (lock : Lock tree) (state : MibState) (request : SetRequest lock.name) :
    Except MibException (List (Oid × ReadValue)) × MibState :=
  (writeVars request.acFun tree [(lock.name, request.value)]).run state

/-- The state after a SET. -/
def step (lock : Lock tree) (state : MibState) (request : SetRequest lock.name) : MibState :=
  (response lock state request).2

/-- The SET succeeds. -/
def Succeeds (lock : Lock tree) (state : MibState) (request : SetRequest lock.name) : Prop :=
  ∃ varBinds, (response lock state request).1 = .ok varBinds

/-- What the instances of all objects hold. -/
def held (state : MibState) (id : ObjectId) (name : Oid) : Option Syntax :=
  ((state id).vars.get? name).bind MibScalarInstance.syntaxObj

/-- The instance is there, with nothing of a SET in progress. -/
structure Stands (lock : Lock tree) (state : MibState) (object : MibScalarInstance) : Prop where
  found : (state lock.id).vars.get? lock.name = some object
  rowOpWanted : (state lock.id).rowOpWanted lock.name = none

/-- The other instances are as they were. -/
def SameElsewhere (lock : Lock tree) (state after : MibState) : Prop :=
  ∀ id name, (id = lock.id ∧ name = lock.name) ∨
    (after id).vars.get? name = (state id).vars.get? name

/-! ### A phase -/

/-- What a phase does to the instance. -/
def instancePhase (context : Context) (name : Oid) (value : Value) :
    SubAction → Effect MibScalarInstance MibException Unit
  | .test => InstanceWrite.writeTest context name (some value)
  | .commit => InstanceWrite.writeCommit context name
  | .cleanup => InstanceWrite.writeCleanup
  | .undo => InstanceWrite.writeUndo

/-- The phase returns, or refuses the value. -/
def ReturnsOrRefuses (context : Context) (name : Oid) (result : Except MibException Unit) : Prop :=
  result = .ok () ∨ result = .error (mibError .wrongValue context name)

/-- The phase returns, or raises what a column and a row pass on. -/
def IsPassedOn (result : Except MibException Unit) : Prop :=
  result = .ok () ∨ ∃ error : SmiError, result = .error (.smi error) ∧
    error.kind ≠ .noSuchInstance ∧ error.kind ≠ .rowCreationWanted ∧
    error.kind ≠ .rowDestructionWanted

theorem ReturnsOrRefuses.isPassedOn {context : Context} {name : Oid}
    {result : Except MibException Unit} (hresult : ReturnsOrRefuses context name result) :
    IsPassedOn result := by
  rcases hresult with rfl | rfl
  · exact Or.inl rfl
  · exact Or.inr ⟨_, rfl, nofun, nofun, nofun⟩

section Phase

variable {lock : Lock tree} {state : MibState} {object next : MibScalarInstance}
  {context : Context} {value : Value} {result : Except MibException Unit}

/-- Run a program on what is kept under the name. -/
def onSlot (lock : Lock tree) (program : Effect Slot MibException Unit) :
    Effect MibState MibException Unit :=
  focus (fun state ↦ (state lock.id).slot lock.name)
    (fun slot state ↦ Function.update state lock.id ((state lock.id).setSlot lock.name slot))
    program

/-- What a program leaves that has replaced the instance, and perhaps counted a change. -/
theorem stands_setSlot {slot : Slot} (hobject : slot.object = some next)
    (hrowOp : slot.rowOpWanted = none) :
    Stands lock (Function.update state lock.id ((state lock.id).setSlot lock.name slot)) next ∧
      SameElsewhere lock state
        (Function.update state lock.id ((state lock.id).setSlot lock.name slot)) := by
  refine ⟨⟨?_, ?_⟩, fun id name ↦ ?_⟩
  · rw [Function.update_self, ObjectState.setSlot, hobject]
    exact SortedMap.get?_insert_self _ _ _
  · rw [Function.update_self, ObjectState.setSlot, hrowOp]
    exact Function.update_self ..
  · by_cases hid : id = lock.id
    · subst hid
      by_cases hname : name = lock.name
      · exact Or.inl ⟨rfl, hname⟩
      · rw [Function.update_self, ObjectState.setSlot, hobject]
        exact Or.inr (SortedMap.get?_insert_of_ne _ _ hname)
    · rw [Function.update_of_ne hid]
      exact Or.inr rfl

/-- A program on the instance of a slot. -/
theorem onObject_run {slot : Slot} {name : Oid}
    {program : Effect MibScalarInstance MibException Unit} (hobject : slot.object = some object)
    (hprogram : program.run object = (result, next)) :
    (onObject context name program).run slot =
      (result, { slot with object := some next }) := by
  rw [onObject, bind_run_of_ok (get_run slot), hobject, focus_run, hprogram]

/-- Access to write is given. -/
def IsWritable (lock : Lock tree) (context : Context) : Prop :=
  checkAccess lock.object.maxAccess.isWritable .notWritable .write context lock.name = .ok ()

/-- What a phase leaves of a column: the instance as the phase of the instance leaves it. -/
def Leaves (program : Effect Slot MibException Unit) (slot : Slot)
    (result : Except MibException Unit) (next : MibScalarInstance) : Prop :=
  ∃ after, program.run slot = (result, after) ∧ after.object = some next ∧
    after.rowOpWanted = none

/-- The phases of `MibScalar`. -/
theorem leaves_scalarWrite {slot : Slot} {subAction : SubAction}
    (hobject : slot.object = some object) (hrowOp : slot.rowOpWanted = none)
    (hwritable : subAction = .test → IsWritable lock context)
    (hphase : (instancePhase context lock.name value subAction).run object = (result, next)) :
    Leaves (ColumnWrite.scalarWrite lock.object context lock.name (some value) subAction) slot
      result next := by
  cases subAction with
  | test =>
    refine ⟨{ slot with object := some next }, ?_, rfl, hrowOp⟩
    rw [ColumnWrite.scalarWrite, ColumnWrite.scalarWriteTest, if_neg lock.name_ne, hwritable rfl,
      bind_run_of_ok (liftExcept_run _ _)]
    exact onObject_run hobject hphase
  | commit => exact ⟨_, onObject_run hobject hphase, rfl, hrowOp⟩
  | cleanup =>
    let bumped : Slot := { slot with branchVersionId := slot.branchVersionId + 1 }
    refine ⟨{ bumped with object := some next }, ?_, rfl, hrowOp⟩
    rw [ColumnWrite.scalarWrite, bumpVersion, bind_run_of_ok (modify_run _ _)]
    exact @onObject_run _ _ _ _ bumped _ _ hobject hphase
  | undo => exact ⟨_, onObject_run hobject hphase, rfl, hrowOp⟩

theorem raiseRowOp_run {slot : Slot} (hrowOp : slot.rowOpWanted = none) :
    raiseRowOp.run slot = (.ok (), slot) := by
  rw [raiseRowOp, bind_run_of_ok (get_run slot), hrowOp]
  rfl

theorem dropRowOp_run {slot : Slot} (hrowOp : slot.rowOpWanted = none) :
    dropRowOp.run slot = (.ok (), slot) := by
  rw [dropRowOp, bind_run_of_ok (get_run slot), hrowOp]
  rfl

/-- What follows a program that leaves no row operation does nothing. -/
theorem Leaves.andThen {program rest : Effect Slot MibException Unit} {slot : Slot}
    (hleaves : Leaves program slot result next)
    (hrest : ∀ after : Slot, after.rowOpWanted = none → rest.run after = (.ok (), after)) :
    Leaves (program >>= fun _ ↦ rest) slot result next := by
  obtain ⟨after, hrun, hobject, hrowOp⟩ := hleaves
  refine ⟨after, ?_, hobject, hrowOp⟩
  cases result with
  | ok value => rw [bind_run_of_ok hrun, hrest after hrowOp]
  | error exception => rw [bind_run_of_error hrun]

/-- A column hands the phase on to the instance, and to nothing else. -/
theorem leaves_delegateWrite {slot : Slot} {subAction : SubAction}
    (hobject : slot.object = some object) (hrowOp : slot.rowOpWanted = none)
    (hwritable : subAction = .test → IsWritable lock context)
    (hphase : (instancePhase context lock.name value subAction).run object = (result, next)) :
    Leaves (delegateWrite lock.object context lock.name (some value) subAction) slot result
      next := by
  obtain ⟨after, hrun, hleaves⟩ := leaves_scalarWrite hobject hrowOp hwritable hphase
  refine ⟨after, ?_, hleaves⟩
  rw [delegateWrite, bind_run_of_ok (get_run slot), hrowOp]
  exact hrun

/-- A column without a row operation passes a phase on to the instance. -/
theorem leaves_columnWrite {slot : Slot} {subAction : SubAction}
    (hobject : slot.object = some object) (hrowOp : slot.rowOpWanted = none)
    (hwritable : subAction = .test → IsWritable lock context)
    (hphase : (instancePhase context lock.name value subAction).run object = (result, next))
    (hresult : IsPassedOn result) :
    Leaves (ColumnWrite.write lock.object context lock.name (some value) subAction) slot result
      next := by
  cases subAction with
  | test =>
    refine Leaves.andThen ?_ fun _ ↦ raiseRowOp_run
    obtain ⟨after, hrun, hleaves⟩ := leaves_scalarWrite hobject hrowOp hwritable hphase
    refine ⟨after, ?_, hleaves⟩
    rcases hresult with rfl | ⟨error, rfl, hmissing, hcreation, hdestruction⟩
    · exact handle_run_of_ok hrun
    · -- the handler knows three kinds of errors, and this is none of them
      refine (handle_run_of_error hrun).trans ?_
      dsimp only
      rw [if_neg hmissing, if_neg hcreation, if_neg hdestruction]
      rfl
  | commit =>
    exact (leaves_delegateWrite hobject hrowOp hwritable hphase).andThen fun _ ↦ raiseRowOp_run
  | cleanup =>
    let bumped : Slot := { slot with branchVersionId := slot.branchVersionId + 1 }
    have hdelegate : Leaves (delegateWrite lock.object context lock.name (some value) .cleanup)
        bumped result next :=
      leaves_delegateWrite hobject hrowOp hwritable hphase
    obtain ⟨after, hrun, hleaves⟩ := hdelegate.andThen fun _ ↦ dropRowOp_run
    refine ⟨after, ?_, hleaves⟩
    exact (bind_run_of_ok (modify_run _ slot)).trans hrun
  | undo =>
    let turned : Slot :=
      { slot with rowOpWanted := slot.rowOpWanted.map fun _ ↦ .destructionWanted }
    have hturned : turned.rowOpWanted = none := by
      show slot.rowOpWanted.map _ = none
      rw [hrowOp]
      rfl
    have hdelegate : Leaves (delegateWrite lock.object context lock.name (some value) .undo)
        turned result next :=
      leaves_delegateWrite hobject hturned hwritable hphase
    obtain ⟨after, hrun, hleaves⟩ := hdelegate.andThen fun _ ↦ dropRowOp_run
    refine ⟨after, ?_, hleaves⟩
    exact (bind_run_of_ok (modify_run _ slot)).trans hrun

/-! ### A phase from the root -/

/-- What a phase leaves of all objects: the instance as the phase of the instance leaves it, and the
others as they were. -/
def Passes (lock : Lock tree) (program : Effect MibState MibException Unit) (state : MibState)
    (result : Except MibException Unit) (next : MibScalarInstance) : Prop :=
  ∃ after, program.run state = (result, after) ∧ Stands lock after next ∧
    SameElsewhere lock state after

theorem Passes.of_run_eq {program other : Effect MibState MibException Unit}
    (hpasses : Passes lock program state result next)
    (hrun : other.run state = program.run state) : Passes lock other state result next := by
  obtain ⟨after, hafter, hleft⟩ := hpasses
  exact ⟨after, hrun.trans hafter, hleft⟩

/-- What leaves its slot in order passes the tree. -/
theorem passes_onSlot {program : Effect Slot MibException Unit}
    (hleaves : Leaves program ((state lock.id).slot lock.name) result next) :
    Passes lock (onSlot lock program) state result next := by
  obtain ⟨after, hrun, hobject, hrowOp⟩ := hleaves
  refine ⟨_, ?_, stands_setSlot hobject hrowOp⟩
  rw [onSlot, focus_run, hrun]

/-- Where the instance lies: in a scalar of the tree, or in a column of a row. -/
theorem Lock.place (lock : Lock tree) :
    (∃ key, tree.getBranch lock.name = some (key, .scalar lock.object) ∧
        lock.id = .scalar lock.object.name) ∨
      ∃ key row branch, tree.getBranch lock.name = some (key, .row row) ∧
        row.columns.getBranch lock.name = some (branch, lock.object) ∧
        lock.id = .column lock.object.name := by
  have htested := lock.tested
  have hcovering := lock.covering
  rw [ReadVars.tested] at htested
  rw [ReadVars.covering] at hcovering
  split_ifs at htested
  cases hbranch : tree.getBranch lock.name with
  | none => simp [hbranch] at htested
  | some entry =>
    obtain ⟨key, node⟩ := entry
    cases node with
    | table tableName =>
      simp only [hbranch] at htested
      split_ifs at htested
    | scalar scalar =>
      simp only [hbranch, Tested.object.injEq, Option.some.injEq] at htested hcovering
      exact Or.inl ⟨key, by rw [htested], by rw [← hcovering, htested]⟩
    | row row =>
      simp only [hbranch] at htested hcovering
      split_ifs at htested
      cases hcolumn : row.columns.getBranch lock.name with
      | none => simp [hcolumn] at htested
      | some entry =>
        obtain ⟨branch, column⟩ := entry
        simp only [hcolumn, Tested.object.injEq] at htested
        simp only [hcolumn, Option.map_some, Option.some.injEq] at hcovering
        exact Or.inr ⟨key, row, branch, rfl, by rw [hcolumn, htested], by rw [← hcovering, htested]⟩

/-- No instance lies at the root. -/
theorem Lock.name_ne_rootName (lock : Lock tree) : lock.name ≠ rootName := by
  intro hroot
  have htested := lock.tested
  rw [ReadVars.tested, if_pos hroot] at htested
  cases htested

/-- A scalar runs the program on the slot of its instance. -/
theorem onScalar_run {name : Oid} {object : MibScalarInstance}
    {program : Effect Slot MibException Unit} {scalar : ManagedObject}
    (hid : lock.id = .scalar name) (hscalar : scalar.name = name)
    (hstands : Stands lock state object) :
    (onScalar scalar context lock.name program).run state = (onSlot lock program).run state := by
  have hfound := hstands.found
  rw [hid] at hfound
  have hbranch := OidOrderedDict.getBranch_of_mem (SortedMap.get?_eq_some_iff.mp hfound)
  rw [onScalar, bind_run_of_ok (get_run state), hscalar, hbranch, onSlot, hid]

/-- The phases of a write of the scalar the instance belongs to. -/
theorem passes_scalarWrite {subAction : SubAction} (hid : lock.id = .scalar lock.object.name)
    (hstands : Stands lock state object) (hwritable : subAction = .test → IsWritable lock context)
    (hphase : (instancePhase context lock.name value subAction).run object = (result, next)) :
    Passes lock (WriteVars.scalarWrite lock.object context lock.name (some value) subAction) state
      result next := by
  have hdirect (start : MibState) (hstart : Stands lock start object) :
      Passes lock (onScalar lock.object context lock.name
        (onObject context lock.name (instancePhase context lock.name value subAction))) start result
        next :=
    (passes_onSlot ⟨_, onObject_run hstart.found hphase, rfl, hstart.rowOpWanted⟩).of_run_eq
      (onScalar_run hid rfl hstart)
  cases subAction with
  | test =>
    refine (hdirect state hstands).of_run_eq ?_
    rw [WriteVars.scalarWrite, WriteVars.scalarWriteTest, if_neg lock.name_ne, hwritable rfl,
      bind_run_of_ok (liftExcept_run _ _)]
    rfl
  | commit => exact hdirect state hstands
  | cleanup =>
    let bumped : MibState := Function.update state lock.id
      { state lock.id with branchVersionId := (state lock.id).branchVersionId + 1 }
    have hbumped : bumped lock.id =
        { state lock.id with branchVersionId := (state lock.id).branchVersionId + 1 } :=
      Function.update_self ..
    have hstart : Stands lock bumped object := by
      refine ⟨?_, ?_⟩ <;> rw [hbumped]
      · exact hstands.found
      · exact hstands.rowOpWanted
    obtain ⟨after, hrun, hafter, hsame⟩ := hdirect bumped hstart
    refine ⟨after, ?_, hafter, fun id name ↦ ?_⟩
    · rw [WriteVars.scalarWrite, bumpScalar, ← hid, bind_run_of_ok (modify_run _ _)]
      exact hrun
    · refine (hsame id name).imp_right fun heq ↦ heq.trans ?_
      by_cases hother : id = lock.id
      · rw [hother, hbumped]
      · show (Function.update state lock.id _ id).vars.get? name = _
        rw [Function.update_of_ne hother]
  | undo => exact hdirect state hstands

/-- The phases of a write of the row the instance lies in; no phase makes the row active. -/
theorem passes_rowWrite {subAction : SubAction} {row : MibTableRow} {branch : Oid}
    (hcolumn : row.columns.getBranch lock.name = some (branch, lock.object))
    (hid : lock.id = .column lock.object.name) (hstands : Stands lock state object)
    (hwritable : subAction = .test → IsWritable lock context)
    (hphase : (instancePhase context lock.name value subAction).run object = (result, next))
    (hresult : IsPassedOn result) :
    Passes lock (RowWrite.write tree row context lock.name (some value) subAction) state result
      next := by
  obtain ⟨after, hrun, hafter⟩ := passes_onSlot
    (leaves_columnWrite hstands.found hstands.rowOpWanted hwritable hphase hresult)
  have hon : (RowWrite.onColumn lock.object lock.name
      (ColumnWrite.write lock.object context lock.name (some value) subAction)).run state =
      (result, after) := by
    rw [← hrun, RowWrite.onColumn, onSlot, hid]
  have hdelegate : (RowWrite.delegate tree row context lock.name (some value) subAction).run state =
      (result.map fun _ ↦ false, after) := by
    rw [RowWrite.delegate, hcolumn]
    rcases hresult with rfl | ⟨error, rfl, -, hcreation, hdestruction⟩
    · exact handle_run_of_ok (bind_run_of_ok hon)
    · refine (handle_run_of_error (bind_run_of_error hon)).trans ?_
      dsimp only
      rw [if_neg hcreation, if_neg hdestruction]
      rfl
  refine ⟨after, ?_, hafter⟩
  rcases hresult with rfl | ⟨error, rfl, -⟩
  · cases subAction <;> exact bind_run_of_ok hdelegate
  · cases subAction <;> exact bind_run_of_error hdelegate

/-- A phase of the write comes to what the instance does. -/
theorem write_run {subAction : SubAction} (hstands : Stands lock state object)
    (hwritable : subAction = .test → IsWritable lock context)
    (hphase : (instancePhase context lock.name value subAction).run object = (result, next))
    (hresult : IsPassedOn result) :
    Passes lock (write tree context lock.name (some value) subAction) state result next := by
  have hbranch : write tree context lock.name (some value) subAction =
      branchWrite tree context lock.name (some value) subAction := by
    cases subAction with
    | test => exact if_neg lock.name_ne_rootName
    | _ => rfl
  rw [hbranch, branchWrite]
  rcases lock.place with ⟨key, hscalar, hid⟩ | ⟨key, row, branch, hrow, hcolumn, hid⟩
  · rw [hscalar]
    exact passes_scalarWrite hid hstands hwritable hphase
  · rw [hrow]
    exact passes_rowWrite hcolumn hid hstands hwritable hphase hresult

end Phase

/-! ### The instance -/

/-- The value after this one. -/
def valueAfter (value : ℤ) : ℤ :=
  if value = 2147483646 then 0 else value + 1

/-- The instance holds a value, with nothing of a SET in progress. -/
structure HoldsValue (name : Oid) (object : MibScalarInstance) (value : ℤ) : Prop where
  name_eq : object.name = name
  syntaxClass : IsTestAndIncr object.syntaxClass
  syntaxObj : object.syntaxObj = some ⟨some (.integer value)⟩
  nonneg : 0 ≤ value
  le : value ≤ 2147483647
  oldSyntax : object.oldSyntax = none
  commitFailure : object.commitFailure = none

/-- The value that lets the instance go on. -/
def Opens (held : ℤ) (value : Value) : Prop :=
  value = .integer held ∧ held ≠ 2147483647

section Instance

variable {name : Oid} {object : MibScalarInstance} {present : ℤ} {context : Context}
  {value : Value}

/-- The value goes up by one below the last. -/
theorem addOne_eq_some (hnonneg : 0 ≤ present) (hle : present ≤ 2147483647)
    (hlast : present ≠ 2147483647) : InstanceWrite.addOne present = some (present + 1) := by
  rw [InstanceWrite.addOne, if_pos]
  omega

/-- The value that is held opens the lock, and the next one is taken. -/
theorem setTestAndIncr_of_opens (hholds : HoldsValue name object present)
    (hopens : Opens present value) :
    InstanceWrite.setTestAndIncr object.syntaxClass ⟨some (.integer present)⟩ value =
      .taken ⟨some (.integer (valueAfter present))⟩ := by
  obtain ⟨rfl, hlast⟩ := hopens
  have hnonneg := hholds.nonneg
  have hle := hholds.le
  have hnext : (if present + 1 > 2147483646 then 0 else present + 1) = valueAfter present := by
    rw [valueAfter]
    split_ifs <;> omega
  have hrange : 0 ≤ valueAfter present ∧ valueAfter present ≤ 2147483647 := by
    rw [valueAfter]
    split_ifs <;> omega
  simp only [InstanceWrite.setTestAndIncr, ne_eq, not_true_eq_false, if_false,
    addOne_eq_some hnonneg hle hlast, hnext, hholds.syntaxClass.clone, if_pos hrange]

/-- Any other value is refused. -/
theorem setTestAndIncr_of_not_opens (hopens : ¬ Opens present value) :
    InstanceWrite.setTestAndIncr object.syntaxClass ⟨some (.integer present)⟩ value =
      .refused := by
  cases value with
  | octetString octets => rfl
  | objectIdentifier oid => rfl
  | integer number =>
    simp only [InstanceWrite.setTestAndIncr]
    split_ifs with hne
    · rfl
    · obtain rfl : number = present := not_not.mp hne
      have hlast : number = 2147483647 := not_not.mp fun hlast ↦ hopens ⟨rfl, hlast⟩
      subst hlast
      rfl

/-- The instance after a SET that it has taken. -/
def taken (object : MibScalarInstance) (present : ℤ) : MibScalarInstance :=
  { object with
    syntaxObj := some ⟨some (.integer (valueAfter present))⟩
    newSyntax := some none
    oldSyntax := none }

/-- The instance after a SET that it has refused. -/
def refused (object : MibScalarInstance) : MibScalarInstance :=
  { object with newSyntax := some none, oldSyntax := none }

/-- An instance that took its value holds the next one. -/
theorem holdsValue_taken (hholds : HoldsValue name object present)
    (hlast : present ≠ 2147483647) :
    HoldsValue name (taken object present) (valueAfter present) := by
  have hnonneg := hholds.nonneg
  have hle := hholds.le
  refine ⟨hholds.name_eq, hholds.syntaxClass, rfl, ?_, ?_, rfl, hholds.commitFailure⟩
  · rw [valueAfter]
    split_ifs <;> omega
  · rw [valueAfter]
    split_ifs <;> omega

/-- An instance that refused holds what it held. -/
theorem holdsValue_refused (hholds : HoldsValue name object present) :
    HoldsValue name (refused object) present :=
  ⟨hholds.name_eq, hholds.syntaxClass, hholds.syntaxObj, hholds.nonneg, hholds.le, rfl,
    hholds.commitFailure⟩

/-- The instance with the value it is about to take. -/
def staged (object : MibScalarInstance) (present : ℤ) : MibScalarInstance :=
  { object with newSyntax := some (some ⟨some (.integer (valueAfter present))⟩) }

/-- The test stages the next value. -/
theorem writeTest_run_of_opens (hholds : HoldsValue name object present)
    (hopens : Opens present value) :
    (InstanceWrite.writeTest context name (some value)).run object =
      (.ok (), staged object present) := by
  have hset : InstanceWrite.setValue object (some value) context name =
      .ok ⟨some (.integer (valueAfter present))⟩ := by
    simp only [InstanceWrite.setValue, hholds.syntaxObj, InstanceWrite.setSyntax,
      hholds.syntaxClass.kind,
      setTestAndIncr_of_opens hholds hopens]
  rw [InstanceWrite.writeTest, bind_run_of_ok (get_run object), if_pos hholds.name_eq.symm, hset]
  rfl

/-- The test refuses, and stages nothing. -/
theorem writeTest_run_of_not_opens (hholds : HoldsValue name object present)
    (hopens : ¬ Opens present value) :
    (InstanceWrite.writeTest context name (some value)).run object =
      (.error (mibError .wrongValue context name), object) := by
  have hset : InstanceWrite.setValue object (some value) context name =
      .error (mibError .wrongValue context name) := by
    simp only [InstanceWrite.setValue, hholds.syntaxObj, InstanceWrite.setSyntax,
      hholds.syntaxClass.kind,
      setTestAndIncr_of_not_opens hopens]
  rw [InstanceWrite.writeTest, bind_run_of_ok (get_run object), if_pos hholds.name_eq.symm, hset]
  rfl

/-- The instance with the value it has taken, and the one before it kept. -/
def committed (object : MibScalarInstance) (present : ℤ) : MibScalarInstance :=
  { staged object present with
    syntaxObj := some ⟨some (.integer (valueAfter present))⟩
    oldSyntax := object.syntaxObj }

/-- The commit takes over what is staged. -/
theorem writeCommit_run (hholds : HoldsValue name object present) :
    (InstanceWrite.writeCommit context name).run (staged object present) =
      (.ok (), committed object present) := by
  have hfailure : (staged object present).commitFailure = none := hholds.commitFailure
  have hold : (staged object present).oldSyntax = none := hholds.oldSyntax
  rw [InstanceWrite.writeCommit, bind_run_of_ok (get_run _), hfailure]
  show InstanceWrite.commitSyntax.run (staged object present) = _
  rw [InstanceWrite.commitSyntax, bind_run_of_ok (get_run _), bind_run_of_ok (modify_run _ _), hold]
  rfl

end Instance

/-! ### A SET -/

/-- The manager may read the instance. -/
def MayRead (acFun : Option AccessFunction) (name : Oid) : Prop :=
  ∀ ask ∈ acFun, ask name .read = .permitted

section Set

variable {lock : Lock tree} {state : MibState} {object : MibScalarInstance} {present : ℤ}
  {request : SetRequest lock.name}

theorem SameElsewhere.trans {between after : MibState} (hfirst : SameElsewhere lock state between)
    (hsecond : SameElsewhere lock between after) : SameElsewhere lock state after := by
  intro id name
  rcases hfirst id name with hhere | hbetween
  · exact Or.inl hhere
  · exact (hsecond id name).imp_right fun hafter ↦ hafter.trans hbetween

theorem isWritable_of_request (request : SetRequest lock.name) :
    IsWritable lock ⟨0, request.acFun, none⟩ := by
  obtain ⟨acFun, value, hmayWrite⟩ := request
  rw [IsWritable, lock.writable, checkAccess]
  cases acFun with
  | none => rfl
  | some ask => simp only [not_true_eq_false, if_false, hmayWrite ask rfl]

/-- A read comes to the instance. -/
theorem Stands.reached (hstands : Stands lock state object) :
    ReadVars.reached state lock.name lock.id = some object := by
  have hget := hstands.found
  rcases lock.place with ⟨_, _, hid⟩ | ⟨_, _, _, _, _, hid⟩
  · rw [hid] at hget
    rw [hid, ReadVars.reached, OidOrderedDict.getBranch_of_mem (SortedMap.get?_eq_some_iff.mp hget)]
    rfl
  · rwa [hid] at hget ⊢

/-- A test reads the access of the object. -/
theorem readTest_ok_iff (hstands : Stands lock state object)
    (hholds : HoldsValue lock.name object present) (acFun : Option AccessFunction) :
    (readTest tree ⟨0, acFun, none⟩ state lock.name = .ok () ↔ MayRead acFun lock.name) ∧
      ∀ exception, readTest tree ⟨0, acFun, none⟩ state lock.name = .error exception →
        ∃ error, exception = .smi error := by
  have hreadable : lock.object.maxAccess.isReadable = true := by
    have hwritable := lock.writable
    cases haccess : lock.object.maxAccess <;> rw [haccess] at hwritable <;>
      first | rfl | cases hwritable
  have hread : readTest tree ⟨0, acFun, none⟩ state lock.name =
      checkAccess true .noAccess .read ⟨0, acFun, none⟩ lock.name := by
    rw [readTest_eq, lock.tested, lock.covering, Option.bind_some, hstands.reached]
    simp only [objectReadTest, if_neg lock.name_ne, hreadable]
    cases hcheck : checkAccess true .noAccess .read ⟨0, acFun, none⟩ lock.name with
    | error exception => rfl
    | ok allowed =>
      have hpopulated : isPopulated object = true := by
        rw [isPopulated, hholds.syntaxObj]
        rfl
      show instanceRead (fun _ ↦ ()) ⟨0, acFun, none⟩ lock.name object = .ok ()
      exact instanceRead_eq_ok_iff.mpr ⟨⟨hholds.name_eq, hpopulated⟩, rfl⟩
  rw [hread, MayRead]
  cases acFun with
  | none => simp [checkAccess]
  | some ask => cases hask : ask lock.name .read <;> simp [checkAccess, hask]

/-- The instance can be read. -/
theorem exists_readGet_eq_ok (hstands : Stands lock state object)
    (hholds : HoldsValue lock.name object present) (context : Context) :
    ∃ varBind, readGet tree context state lock.name = .ok varBind := by
  refine exists_readGet_eq_ok_iff.mpr ?_
  rw [lock.covering, Option.bind_some, hstands.reached]
  rintro found hfound
  obtain rfl := Option.some.inj hfound
  refine ⟨hholds.name_eq, ?_⟩
  rw [isPopulated, hholds.syntaxObj]
  rfl

/-- A phase of the write, as the machine runs it. -/
theorem runPhase_write (request : SetRequest lock.name) (phase : FsmState) (subAction : SubAction)
    {result : Except MibException Unit} {next : MibScalarInstance}
    (hstands : Stands lock state object)
    (hhandler : ∀ varBind, writeHandlers request.acFun tree phase 0 varBind = do
      write tree ⟨0, request.acFun, none⟩ varBind.1 (some varBind.2) subAction
      pure none)
    (hphase : (instancePhase ⟨0, request.acFun, none⟩ lock.name request.value subAction).run
      object = (result, next))
    (hresult : ReturnsOrRefuses ⟨0, request.acFun, none⟩ lock.name result) :
    ∃ after, Stands lock after next ∧ SameElsewhere lock state after ∧
      (runPhase (writeHandlers request.acFun tree phase) 0 [(lock.name, request.value)]).run state =
        (.ok ([], if result = .ok () then none
          else some ⟨.wrongValue, some 0, some lock.name, none⟩), after) := by
  obtain ⟨after, hrun, hafter, hsame⟩ :=
    write_run hstands (fun _ ↦ isWritable_of_request request) hphase hresult.isPassedOn
  refine ⟨after, hafter, hsame, ?_⟩
  rcases hresult with rfl | rfl
  · have hhandled :
        (writeHandlers request.acFun tree phase 0 (lock.name, request.value)).run state =
          (.ok none, after) := by
      rw [hhandler, bind_run_of_ok hrun, pure_run]
    exact runPhase_singleton_of_ok hhandled
  · have hhandled :
        (writeHandlers request.acFun tree phase 0 (lock.name, request.value)).run state =
          (.error (.smi ⟨.wrongValue, some 0, some lock.name, none⟩), after) := by
      rw [hhandler, bind_run_of_error hrun]
      rfl
    exact runPhase_singleton_of_error hhandled

theorem readTest_handler_run {result : Except MibException Unit}
    (htest : readTest tree ⟨0, request.acFun, none⟩ state lock.name = result) :
    (writeHandlers request.acFun tree .readTest 0 (lock.name, request.value)).run state =
      (result.map fun _ ↦ none, state) := by
  refine (bind_run_of_ok (get_run state)).trans ?_
  rw [htest]
  cases result <;> rfl

theorem readGet_handler_run {varBind : Oid × ReadValue}
    (hget : readGet tree ⟨0, request.acFun, none⟩ state lock.name = .ok varBind) :
    (writeHandlers request.acFun tree .readGet 0 (lock.name, request.value)).run state =
      (.ok (some varBind), state) := by
  refine (bind_run_of_ok (get_run state)).trans ?_
  rw [hget]
  rfl

/-- What the machine makes of the errors of the write and of the test after it. -/
def conclusion (origExc : Option SmiError) (test : Except MibException Unit)
    (varBind : Oid × ReadValue) : Except MibException (List (Oid × ReadValue)) :=
  match origExc, test with
  | some error, _ => .error (.smi error)
  | none, .ok _ => .ok [varBind]
  | none, .error exception => .error exception

/-- The reads after the write change nothing, and raise only where nothing has been raised. -/
theorem reads_run (request : SetRequest lock.name) (hstands : Stands lock state object)
    (hholds : HoldsValue lock.name object present) (turns : ℕ) (origExc : Option SmiError) :
    ∃ varBind, (flipFlopLoop fsmWriteVar (writeHandlers request.acFun tree)
        [(lock.name, request.value)] (turns + 3) .writeCleanup .ok origExc []).run state =
      (conclusion origExc (readTest tree ⟨0, request.acFun, none⟩ state lock.name) varBind,
        state) := by
  obtain ⟨varBind, hget⟩ := exists_readGet_eq_ok hstands hholds ⟨0, request.acFun, none⟩
  refine ⟨varBind, ?_⟩
  cases htest : readTest tree ⟨0, request.acFun, none⟩ state lock.name with
  | ok allowed =>
    have hfirst := runPhase_singleton_of_ok (readTest_handler_run htest)
    have hsecond := runPhase_singleton_of_ok (readGet_handler_run hget)
    rw [flipFlopLoop_run_of_next rfl (by decide) hfirst,
      flipFlopLoop_run_of_next rfl (by decide) hsecond, flipFlopLoop_run_of_stop rfl]
    cases origExc <;> rfl
  | error exception =>
    obtain ⟨error, rfl⟩ := (readTest_ok_iff hstands hholds request.acFun).2 exception htest
    have hfirst := runPhase_singleton_of_error (readTest_handler_run htest)
    rw [flipFlopLoop_run_of_next rfl (by decide) hfirst, flipFlopLoop_run_of_stop rfl]
    cases origExc <;> rfl

/-- A value that does not open the lock is a wrong one, and the instance keeps what it holds. -/
theorem response_of_not_opens (hstands : Stands lock state object)
    (hholds : HoldsValue lock.name object present) (hopens : ¬ Opens present request.value) :
    (response lock state request).1 =
        .error (mibError .wrongValue ⟨0, request.acFun, none⟩ lock.name) ∧
      Stands lock (step lock state request) (refused object) ∧
      SameElsewhere lock state (step lock state request) := by
  obtain ⟨between, hbetween, hfirst, htest⟩ := runPhase_write request .writeTest .test hstands
    (fun _ ↦ rfl) (writeTest_run_of_not_opens hholds hopens) (Or.inr rfl)
  obtain ⟨after, hafter, hsecond, hcleanup⟩ := runPhase_write request .writeCleanup .cleanup
    hbetween (fun _ ↦ rfl) (modify_run _ object) (Or.inl rfl)
  obtain ⟨varBind, hreads⟩ := reads_run request hafter (holdsValue_refused hholds) 8
    (some ⟨.wrongValue, some 0, some lock.name, none⟩)
  have hrun : response lock state request =
      (.error (mibError .wrongValue ⟨0, request.acFun, none⟩ lock.name), after) := by
    rw [response, writeVars_run_of_refused htest hcleanup]
    exact hreads
  rw [step, hrun]
  exact ⟨rfl, hafter, hfirst.trans hsecond⟩

/-- A value that opens the lock is taken, whatever becomes of the reads. -/
theorem response_of_opens (hstands : Stands lock state object)
    (hholds : HoldsValue lock.name object present) (hopens : Opens present request.value) :
    (Succeeds lock state request ↔ MayRead request.acFun lock.name) ∧
      Stands lock (step lock state request) (taken object present) ∧
      SameElsewhere lock state (step lock state request) := by
  obtain ⟨first, hstaged, hsameStaged, htest⟩ := runPhase_write request .writeTest .test hstands
    (fun _ ↦ rfl) (writeTest_run_of_opens hholds hopens) (Or.inl rfl)
  obtain ⟨second, hcommitted, hsameCommitted, hcommit⟩ := runPhase_write request .writeCommit
    .commit hstaged (fun _ ↦ rfl) (writeCommit_run hholds) (Or.inl rfl)
  obtain ⟨after, hafter, hsameAfter, hcleanup⟩ := runPhase_write request .writeCleanup .cleanup
    hcommitted (fun _ ↦ rfl) (modify_run _ (committed object present)) (Or.inl rfl)
  have htaken := holdsValue_taken hholds hopens.2
  obtain ⟨varBind, hreads⟩ := reads_run request hafter htaken 7 none
  have hrun : response lock state request =
      (conclusion none (readTest tree ⟨0, request.acFun, none⟩ after lock.name) varBind,
        after) := by
    rw [response, writeVars_run_of_passed htest hcommit hcleanup]
    exact hreads
  rw [Succeeds, step, hrun]
  refine ⟨?_, hafter, (hsameStaged.trans hsameCommitted).trans hsameAfter⟩
  rw [← (readTest_ok_iff hafter htaken request.acFun).1]
  cases readTest tree ⟨0, request.acFun, none⟩ after lock.name <;> simp [conclusion]

end Set

/-! ### The lock -/

/-- The instance holds this integer. -/
def IsHeld (lock : Lock tree) (state : MibState) (present : ℤ) : Prop :=
  held state lock.id lock.name = some ⟨some (.integer present)⟩

/-- What a SET of an advisory lock does: it succeeds just with the value that is held, and then that
value goes up by one and from the last one to zero; otherwise it fails with `inconsistentValue` and
changes nothing. -/
structure ActsAsLock (lock : Lock tree) (state : MibState) (request : SetRequest lock.name) :
    Prop where
  succeeds_iff : ∀ present, IsHeld lock state present →
    (Succeeds lock state request ↔ request.value = .integer present)
  advances : ∀ present, IsHeld lock state present → Succeeds lock state request →
    IsHeld lock (step lock state request) (if present = 2147483647 then 0 else present + 1)
  fails : ¬ Succeeds lock state request →
    (∃ error, (response lock state request).1 = .error (.smi error) ∧
        error.kind = .inconsistentValue) ∧
      ∀ id name, held (step lock state request) id name = held state id name

/-- Two successes with one value are parted by a success that brings the counter to zero. -/
def Excludes (lock : Lock tree) (state : MibState) (requests : List (SetRequest lock.name)) :
    Prop :=
  ∀ before first between second after,
    requests = before ++ (first :: between) ++ second :: after →
    first.value = second.value →
    Succeeds lock (before.foldl (step lock) state) first →
    Succeeds lock ((before ++ (first :: between)).foldl (step lock) state) second →
    ¬ EveryStep (step lock) (fun state request ↦ ¬ IsHeld lock (step lock state request) 0)
      (before.foldl (step lock) state) (first :: between)

/-- The SET carries the value that is held, one short of the last two, and may be followed by a
read. -/
def CarriesHeld (lock : Lock tree) (state : MibState) (request : SetRequest lock.name) : Prop :=
  ∃ present, IsHeld lock state present ∧ request.value = .integer present ∧
    present < 2147483646 ∧ MayRead request.acFun lock.name

/-- The instance is there and holds a value. -/
structure Ready (lock : Lock tree) (state : MibState) (present : ℤ) : Prop where
  exists_object : ∃ object, Stands lock state object ∧ HoldsValue lock.name object present

section Run

variable {lock : Lock tree} {state : MibState} {present : ℤ} {request : SetRequest lock.name}

theorem Ready.isHeld (hready : Ready lock state present) : IsHeld lock state present := by
  obtain ⟨object, hstands, hholds⟩ := hready.exists_object
  rw [IsHeld, held, hstands.found]
  exact hholds.syntaxObj

/-- The value is the only one that is held. -/
theorem Ready.isHeld_iff (hready : Ready lock state present) {other : ℤ} :
    IsHeld lock state other ↔ other = present := by
  constructor
  · intro hother
    have heq := hother.symm.trans hready.isHeld
    simpa using heq
  · rintro rfl
    exact hready.isHeld

/-- What one SET does. -/
theorem Ready.step_of_not_opens (hready : Ready lock state present)
    (hopens : ¬ Opens present request.value) :
    (response lock state request).1 =
        .error (mibError .wrongValue ⟨0, request.acFun, none⟩ lock.name) ∧
      ¬ Succeeds lock state request ∧ Ready lock (step lock state request) present := by
  obtain ⟨object, hstands, hholds⟩ := hready.exists_object
  obtain ⟨hresponse, hafter, -⟩ := response_of_not_opens hstands hholds hopens
  refine ⟨hresponse, ?_, ⟨_, hafter, holdsValue_refused hholds⟩⟩
  rintro ⟨varBinds, hok⟩
  rw [hresponse] at hok
  cases hok

/-- A SET with the value that is held succeeds for a manager who may read it, and the next value is
held. -/
theorem Ready.step_of_opens (hready : Ready lock state present)
    (hopens : Opens present request.value) :
    (Succeeds lock state request ↔ MayRead request.acFun lock.name) ∧
      Ready lock (step lock state request) (valueAfter present) := by
  obtain ⟨object, hstands, hholds⟩ := hready.exists_object
  obtain ⟨hsucceeds, hafter, -⟩ := response_of_opens hstands hholds hopens
  exact ⟨hsucceeds, ⟨_, hafter, holdsValue_taken hholds hopens.2⟩⟩

/-- Some value is held after any SET. -/
theorem Ready.exists_next (hready : Ready lock state present) (request : SetRequest lock.name) :
    ∃ next, Ready lock (step lock state request) next := by
  by_cases hopens : Opens present request.value
  · exact ⟨_, (hready.step_of_opens hopens).2⟩
  · exact ⟨_, (hready.step_of_not_opens hopens).2.2⟩

/-- The value is within the range of `TestAndIncr`. -/
theorem Ready.range (hready : Ready lock state present) : 0 ≤ present ∧ present ≤ 2147483647 := by
  obtain ⟨object, -, hholds⟩ := hready.exists_object
  exact ⟨hholds.nonneg, hholds.le⟩

/-- The lock works on this SET if the SET carries the value that is held. -/
theorem Ready.actsAsLock_iff (hready : Ready lock state present) :
    ActsAsLock lock state request ↔ CarriesHeld lock state request := by
  have hle := hready.range.2
  by_cases hopens : Opens present request.value
  · obtain ⟨hsucceeds, hnext⟩ := hready.step_of_opens hopens
    constructor
    · intro hacts
      have hdone := (hacts.succeeds_iff present hready.isHeld).mpr hopens.1
      have hadvanced := hnext.isHeld_iff.mp (hacts.advances present hready.isHeld hdone)
      rw [if_neg hopens.2, valueAfter] at hadvanced
      refine ⟨present, hready.isHeld, hopens.1, ?_, hsucceeds.mp hdone⟩
      have hlast := hopens.2
      split_ifs at hadvanced <;> omega
    · rintro ⟨other, hother, -, hbound, hread⟩
      obtain rfl := hready.isHeld_iff.mp hother
      refine ⟨fun held hheld ↦ ?_, fun held hheld _ ↦ ?_, fun hfails ↦ ?_⟩
      · obtain rfl := hready.isHeld_iff.mp hheld
        exact iff_of_true (hsucceeds.mpr hread) hopens.1
      · obtain rfl := hready.isHeld_iff.mp hheld
        rw [hnext.isHeld_iff, if_neg hopens.2, valueAfter, if_neg (by omega)]
      · exact absurd (hsucceeds.mpr hread) hfails
  · obtain ⟨hresponse, hfails, -⟩ := hready.step_of_not_opens hopens
    constructor
    · intro hacts
      obtain ⟨⟨error, herror, hkind⟩, -⟩ := hacts.fails hfails
      rw [hresponse] at herror
      cases herror
      cases hkind
    · rintro ⟨other, hother, hvalue, hbound, -⟩
      obtain rfl := hready.isHeld_iff.mp hother
      exact absurd ⟨hvalue, by omega⟩ hopens

/-- Only the value that is held succeeds. -/
theorem Ready.opens_of_succeeds (hready : Ready lock state present)
    (hsucceeds : Succeeds lock state request) : Opens present request.value :=
  not_not.mp fun hopens ↦ (hready.step_of_not_opens hopens).2.1 hsucceeds

/-- Where a SET does not bring the value to zero, it does not bring it down. -/
theorem Ready.le_of_not_isHeld_zero (hready : Ready lock state present)
    (hzero : ¬ IsHeld lock (step lock state request) 0) :
    ∃ next, Ready lock (step lock state request) next ∧ present ≤ next ∧
      (Opens present request.value → present < next) := by
  by_cases hopens : Opens present request.value
  · obtain ⟨-, hnext⟩ := hready.step_of_opens hopens
    have hpositive : valueAfter present ≠ 0 := fun heq ↦ hzero (hnext.isHeld_iff.mpr heq.symm)
    have hadvanced : valueAfter present = present + 1 := by
      rw [valueAfter] at hpositive ⊢
      split_ifs at hpositive ⊢
      · exact absurd rfl hpositive
      · rfl
    exact ⟨_, hnext, by omega, fun _ ↦ by omega⟩
  · exact ⟨present, (hready.step_of_not_opens hopens).2.2, le_rfl, fun hyes ↦ absurd hyes hopens⟩

/-- Some value is held after any history of SETs. -/
theorem Ready.foldl (hready : Ready lock state present)
    (requests : List (SetRequest lock.name)) :
    ∃ value, Ready lock (requests.foldl (step lock) state) value := by
  induction requests generalizing state present with
  | nil => exact ⟨present, hready⟩
  | cons request requests ih =>
    obtain ⟨next, hnext⟩ := hready.exists_next request
    exact ih hnext

/-- Without a zero the value only goes up, and the first success brings it above what both
carried. -/
theorem Ready.excludes (hready : Ready lock state present)
    (requests : List (SetRequest lock.name)) : Excludes lock state requests := by
  rintro before first between second after rfl hsame hfirst hsecond ⟨hhere, hrest⟩
  obtain ⟨start, hstart⟩ := hready.foldl before
  have hopens := hstart.opens_of_succeeds hfirst
  obtain ⟨next, hnext, -, hlt⟩ := hstart.le_of_not_isHeld_zero hhere
  obtain ⟨value, hvalue, habove⟩ := hrest.foldl_invariant
    (fun state ↦ ∃ value, Ready lock state value ∧ start < value)
    ⟨next, hnext, hlt hopens⟩ fun state request ⟨value, hvalue, habove⟩ hzero ↦ by
      obtain ⟨larger, hlarger, hle, -⟩ := hvalue.le_of_not_isHeld_zero hzero
      exact ⟨larger, hlarger, habove.trans_le hle⟩
  rw [List.foldl_append, List.foldl_cons] at hsecond
  have hcarried := (hvalue.opens_of_succeeds hsecond).1
  rw [← hsame, hopens.1, Value.integer.injEq] at hcarried
  omega

/-- The SETs of a run act as those of an advisory lock just when each carries the value that is
held, short of the last two, and may be followed by a read. -/
theorem everyStep_actsAsLock_iff (hready : Ready lock state present)
    (requests : List (SetRequest lock.name)) :
    EveryStep (step lock) (ActsAsLock lock) state requests ∧
        Excludes lock state requests ↔
      EveryStep (step lock) (CarriesHeld lock) state requests := by
  rw [and_iff_left (hready.excludes requests)]
  refine EveryStep.iff_of_invariant (EveryStep.of_forall fun _ _ _ ↦ trivial)
    (fun state ↦ ∃ value, Ready lock state value) ⟨present, hready⟩ ?_
  rintro state request ⟨value, hvalue⟩ -
  exact ⟨hvalue.actsAsLock_iff, fun _ ↦ hvalue.exists_next request⟩

end Run

/-! ### `snmpSetSerialNo` -/

def testAndIncrClass : SyntaxClass where
  kind := .testAndIncr
  clone := fun value ↦
    match value with
    | .integer value =>
      if 0 ≤ value ∧ value ≤ 2147483647 then some (.integer value) else none
    | _ => none
  default := ⟨some (.integer 0)⟩

def snmpSetSerialNo : ManagedObject where
  name := [1, 3, 6, 1, 6, 3, 1, 1, 6, 1]
  maxAccess := .readWrite
  syntaxClass := testAndIncrClass

def sampleTree : MibTree :=
  (∅ : MibTree).insert snmpSetSerialNo.name (.scalar snmpSetSerialNo)

def sampleLock : Lock sampleTree where
  name := [1, 3, 6, 1, 6, 3, 1, 1, 6, 1, 0]
  id := .scalar snmpSetSerialNo.name
  object := snmpSetSerialNo
  tested := rfl
  covering := rfl
  name_ne := by decide
  writable := rfl

/-- The serial number holds a value. -/
def sampleState (value : ℤ) : MibState :=
  Function.update (fun _ ↦ ObjectState.initial) sampleLock.id
    { ObjectState.initial with
      vars := (∅ : OidOrderedDict MibScalarInstance).insert sampleLock.name
        { name := sampleLock.name
          syntaxClass := testAndIncrClass
          syntaxObj := some ⟨some (.integer value)⟩ } }

/-- A manager without access control sets a value. -/
def sampleSet (value : ℤ) : SetRequest sampleLock.name where
  acFun := none
  value := .integer value
  mayWrite := fun ask hask ↦ by cases hask

theorem ready_sampleState {value : ℤ} (hnonneg : 0 ≤ value) (hle : value ≤ 2147483647) :
    Ready sampleLock (sampleState value) value :=
  ⟨_, ⟨SortedMap.get?_insert_self _ _ _, rfl⟩,
    ⟨rfl, ⟨rfl, fun _ ↦ rfl⟩, rfl, hnonneg, hle, rfl, rfl⟩⟩

/-- Two managers have read 5; the first of them to set it succeeds. -/
theorem everyStep_actsAsLock_iff_sampleSet :
    EveryStep (step sampleLock) (ActsAsLock sampleLock) (sampleState 5) [sampleSet 5] ∧
        Excludes sampleLock (sampleState 5) [sampleSet 5] ↔
      EveryStep (step sampleLock) (CarriesHeld sampleLock) (sampleState 5) [sampleSet 5] :=
  everyStep_actsAsLock_iff (ready_sampleState (by decide) (by decide)) [sampleSet 5]

/-- The value 2147483646 is followed by 0. -/
theorem not_everyStep_actsAsLock :
    ¬ (EveryStep (step sampleLock) (ActsAsLock sampleLock) (sampleState 2147483646)
        [sampleSet 2147483646] ∧
      Excludes sampleLock (sampleState 2147483646) [sampleSet 2147483646]) := by
  rintro ⟨⟨hacts, -⟩, -⟩
  have hready : Ready sampleLock (sampleState 2147483646) 2147483646 :=
    ready_sampleState (by decide) (by decide)
  obtain ⟨present, hheld, -, hbound, -⟩ := hready.actsAsLock_iff.mp hacts
  obtain rfl := hready.isHeld_iff.mp hheld
  omega

end Pysnmp.Smi.AdvisoryLock
