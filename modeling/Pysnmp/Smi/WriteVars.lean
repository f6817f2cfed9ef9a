import Pysnmp.Smi.FlipFlopFsm
import Pysnmp.Smi.RowWrite

/-!
# SET

`MibInstrumController.writeVars`: the phases of a write from the root of the tree, the reads that
follow a write, and the machine that runs them over the bindings of a request.
-/

set_option autoImplicit false
set_option relaxedAutoImplicit false

namespace Pysnmp.Smi.WriteVars

open Foundation Foundation.Effect Proto FlipFlopFsm ColumnWrite
open InstanceWrite (mibError)

/-- The name of the root, `iso`. -/
def rootName : Oid := [1]

/-- The access a node that is neither scalar nor column has to its own name: none. -/
def nodeAccess (refusal : SmiErrorKind) (kind : AccessKind) (context : Context) (name : Oid) :
    Except MibException Unit :=
  checkAccess false refusal kind context name

/-! ### Write -/

/-- Run a program on what a scalar keeps in the branch the name lies in. -/
def onScalar (scalar : ManagedObject) (context : Context) (name : Oid)
    (program : Effect Slot MibException Unit) : Effect MibState MibException Unit := do
  let state ← get
  match (state (.scalar scalar.name)).vars.getBranch name with
  | none => raise (mibError .noSuchInstance context name)
  | some (key, _) =>
    focus (fun state ↦ (state (.scalar scalar.name)).slot key)
      (fun slot state ↦ Function.update state (.scalar scalar.name)
        ((state (.scalar scalar.name)).setSlot key slot))
      program

/-- `MibScalar.writeTest`, where access is asked before the branch is looked for. -/
def scalarWriteTest (scalar : ManagedObject) (context : Context) (name : Oid)
    (value : Option Value) : Effect MibState MibException Unit := do
  if name = scalar.name then
    raise (mibError .noAccess context name)
  else do
    liftExcept (checkAccess scalar.maxAccess.isWritable .notWritable .write context name)
    onScalar scalar context name
      (onObject context name (InstanceWrite.writeTest context name value))

/-- Count a change of a scalar. -/
def bumpScalar (scalar : ManagedObject) : Effect MibState MibException Unit :=
  modify fun state ↦ Function.update state (.scalar scalar.name)
    { state (.scalar scalar.name) with
      branchVersionId := (state (.scalar scalar.name)).branchVersionId + 1 }

/-- The phases of a write of a scalar. -/
def scalarWrite (scalar : ManagedObject) (context : Context) (name : Oid) (value : Option Value) :
    SubAction → Effect MibState MibException Unit
  | .test => scalarWriteTest scalar context name value
  | .commit =>
    onScalar scalar context name (onObject context name (InstanceWrite.writeCommit context name))
  | .cleanup => do
    bumpScalar scalar
    onScalar scalar context name (onObject context name InstanceWrite.writeCleanup)
  | .undo => onScalar scalar context name (onObject context name InstanceWrite.writeUndo)

/-- The phases of a write of a table, which has no subtrees: only the test knows its own name. -/
def tableWrite (tableName : Oid) (context : Context) (name : Oid) :
    SubAction → Effect MibState MibException Unit
  | .test =>
    if name = tableName then
      liftExcept (nodeAccess .notWritable .write context name)
    else
      raise (mibError .noSuchObject context name)
  | _ => raise (mibError .noSuchObject context name)

/-- The phases of a write of a subtree of the root. -/
def branchWrite (tree : MibTree) (context : Context) (name : Oid) (value : Option Value)
    (subAction : SubAction) : Effect MibState MibException Unit :=
  match tree.getBranch name with
  | none => raise (mibError .noSuchObject context name)
  | some (_, .table tableName) => tableWrite tableName context name subAction
  | some (_, .row row) => RowWrite.write tree row context name value subAction
  | some (_, .scalar scalar) => scalarWrite scalar context name value subAction

/-- The phases of a write from the root: only the test knows its own name. -/
def write (tree : MibTree) (context : Context) (name : Oid) (value : Option Value) :
    SubAction → Effect MibState MibException Unit
  | .test =>
    if name = rootName then
      liftExcept (nodeAccess .notWritable .write context name)
    else
      branchWrite tree context name value .test
  | subAction => branchWrite tree context name value subAction

/-! ### Read -/

/-- `MibScalarInstance.readTest` and `readGet`, which differ in what they answer. -/
def instanceRead {α : Type} (answer : MibScalarInstance → α) (context : Context) (name : Oid)
    (object : MibScalarInstance) : Except MibException α := do
  if name = object.name then
    if ← object.isValue then
      .ok (answer object)
    else
      .error (mibError .noSuchInstance context name)
  else
    .error (mibError .noSuchInstance context name)

/-- `MibScalar.readTest`, with the branch of a scalar or that of a column; a missing instance is no
error. -/
def objectReadTest (object : ManagedObject) (branch : Option MibScalarInstance)
    (context : Context) (name : Oid) : Except MibException Unit := do
  if name = object.name then
    .error (mibError .noAccess context name)
  else do
    checkAccess object.maxAccess.isReadable .noAccess .read context name
    match branch with
    | none => .ok ()
    | some found => instanceRead (fun _ ↦ ()) context name found

/-- `MibScalar.readGet`, with the branch of a scalar or that of a column. -/
def objectReadGet (branch : Option MibScalarInstance) (context : Context) (name : Oid) :
    Except MibException (Oid × ReadValue) :=
  match branch with
  | none => .ok (name, .noSuchInstance)
  | some found =>
    instanceRead (fun found ↦ (found.name, .value found.syntaxObj)) context name found

/-- The branch of a scalar. -/
def scalarBranch (state : MibState) (scalar : ManagedObject) (name : Oid) :
    Option MibScalarInstance :=
  ((state (.scalar scalar.name)).vars.getBranch name).map Prod.snd

/-- `MibTree.readTest` from the root. -/
def readTest (tree : MibTree) (context : Context) (state : MibState) (name : Oid) :
    Except MibException Unit :=
  if name = rootName then
    nodeAccess .noAccess .read context name
  else
    match tree.getBranch name with
    | none => .ok ()
    | some (_, .table tableName) =>
      if name = tableName then nodeAccess .noAccess .read context name else .ok ()
    | some (_, .scalar scalar) =>
      objectReadTest scalar (scalarBranch state scalar name) context name
    | some (_, .row row) =>
      if name = row.name then
        nodeAccess .noAccess .read context name
      else
        match row.columns.getBranch name with
        | none => .ok ()
        | some (_, column) =>
          objectReadTest column ((state (.column column.name)).vars.get? name) context name

/-- `MibTree.readGet` from the root. -/
def readGet (tree : MibTree) (context : Context) (state : MibState) (name : Oid) :
    Except MibException (Oid × ReadValue) :=
  match tree.getBranch name with
  | none => .ok (name, .noSuchObject)
  | some (_, .table _) => .ok (name, .noSuchObject)
  | some (_, .scalar scalar) => objectReadGet (scalarBranch state scalar name) context name
  | some (_, .row row) =>
    match row.columns.getBranch name with
    | none => .ok (name, .noSuchObject)
    | some (_, column) =>
      objectReadGet ((state (.column column.name)).vars.get? name) context name

/-! ### The machine -/

/-- A binding of a SET request. -/
abbrev VarBind := Oid × Value

/-- The handlers of the phases of SET. -/
def writeHandlers (acFun : Option AccessFunction) (tree : MibTree) (phase : FsmState) (idx : ℕ)
    (varBind : VarBind) : Effect MibState MibException (Option (Oid × ReadValue)) :=
  let context : Context := ⟨idx, acFun, none⟩
  let perform (subAction : SubAction) :
      Effect MibState MibException (Option (Oid × ReadValue)) := do
    write tree context varBind.1 (some varBind.2) subAction
    pure none
  match phase with
  | .writeTest => perform .test
  | .writeCommit => perform .commit
  | .writeCleanup => perform .cleanup
  | .writeUndo => perform .undo
  | .readTest => do
    let state ← get
    liftExcept (readTest tree context state varBind.1)
    pure none
  | .readGet => do
    let state ← get
    let rval ← liftExcept (readGet tree context state varBind.1)
    pure (some rval)
  | _ => pure none

/-- `MibInstrumController.writeVars`. -/
def writeVars (acFun : Option AccessFunction) (tree : MibTree) (varBinds : List VarBind) :
    Effect MibState MibException (List (Oid × ReadValue)) :=
  flipFlopFsm fsmWriteVar (writeHandlers acFun tree) varBinds

/-! ### How the reads are reached -/

section Reads

variable {acFun : Option AccessFunction} {tree : MibTree} {varBinds : List VarBind}
  {state tested committed cleaned : MibState}

/-- A write that passes its phases goes on to the reads. -/
theorem writeVars_run_of_passed
    (htest : (runPhase (writeHandlers acFun tree .writeTest) 0 varBinds).run state =
      (.ok ([], none), tested))
    (hcommit : (runPhase (writeHandlers acFun tree .writeCommit) 0 varBinds).run tested =
      (.ok ([], none), committed))
    (hcleanup : (runPhase (writeHandlers acFun tree .writeCleanup) 0 varBinds).run committed =
      (.ok ([], none), cleaned)) :
    (writeVars acFun tree varBinds).run state =
      (flipFlopLoop fsmWriteVar (writeHandlers acFun tree) varBinds (7 + 3) .writeCleanup .ok
        none []).run cleaned := by
  rw [writeVars, flipFlopFsm]
  refine (flipFlopLoop_run_of_next rfl (by decide) htest).trans ?_
  refine (flipFlopLoop_run_of_next rfl (by decide) hcommit).trans ?_
  exact flipFlopLoop_run_of_next rfl (by decide) hcleanup

/-- A write that is refused in its test is cleaned up, and goes on to the reads with the error. -/
theorem writeVars_run_of_refused {error : SmiError}
    (htest : (runPhase (writeHandlers acFun tree .writeTest) 0 varBinds).run state =
      (.ok ([], some error), tested))
    (hcleanup : (runPhase (writeHandlers acFun tree .writeCleanup) 0 varBinds).run tested =
      (.ok ([], none), cleaned)) :
    (writeVars acFun tree varBinds).run state =
      (flipFlopLoop fsmWriteVar (writeHandlers acFun tree) varBinds (8 + 3) .writeCleanup .ok
        (some error) []).run cleaned := by
  rw [writeVars, flipFlopFsm]
  refine (flipFlopLoop_run_of_next rfl (by decide) htest).trans ?_
  exact flipFlopLoop_run_of_next rfl (by decide) hcleanup

end Reads

end Pysnmp.Smi.WriteVars
