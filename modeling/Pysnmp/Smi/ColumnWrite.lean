import Pysnmp.Smi.InstanceWrite

/-!
# Writing under a name of a column

`MibTableColumn` keeps under the name of an instance the instance, what a SET in progress has
created and destroyed there, and the row operation a binding has asked for. Its methods work on what
is kept under one name (`Entry`). A write of an instance that does not exist asks for the creation
of its row, and a row status asks for what its new value says; the request is recorded in
`rowOpWanted`, decides which operation the later phases perform, and is raised to the row in each of
them.
-/

set_option autoImplicit false
set_option relaxedAutoImplicit false

namespace Pysnmp.Smi

open Foundation Foundation.Effect Proto

/-- What a column keeps under one name. -/
structure Entry where
  object : Option MibScalarInstance
  created : Option (Option MibScalarInstance)
  destroyed : Option MibScalarInstance
  rowOpWanted : Option RowOperation

/-- What the methods of a column work on: what is kept under a name, and the version of the column,
which all names share. -/
structure Slot extends Entry where
  branchVersionId : ℕ

/-- What is kept under a name. -/
def ObjectState.slot (state : ObjectState) (name : Oid) : Slot where
  object := state.vars.get? name
  created := state.createdInstances name
  destroyed := state.destroyedInstances name
  rowOpWanted := state.rowOpWanted name
  branchVersionId := state.branchVersionId

/-- Replace what is kept under a name. -/
def ObjectState.setSlot (name : Oid) (slot : Slot) (state : ObjectState) : ObjectState where
  vars :=
    match slot.object with
    | none => state.vars.erase name
    | some object => state.vars.insert name object
  createdInstances := Function.update state.createdInstances name slot.created
  destroyedInstances := Function.update state.destroyedInstances name slot.destroyed
  rowOpWanted := Function.update state.rowOpWanted name slot.rowOpWanted
  branchVersionId := slot.branchVersionId

namespace ColumnWrite

open InstanceWrite (mibError)

/-- The phases of a write. -/
inductive SubAction
  | test
  | commit
  | cleanup
  | undo
  deriving DecidableEq, Repr

/-- What is raised to ask a row for an operation. -/
def RowOperation.exception : RowOperation → MibException
  | .creationWanted syntaxDetail => .smi { kind := .rowCreationWanted, syntaxDetail }
  | .destructionWanted => .smi { kind := .rowDestructionWanted }

/-- Run a program on the instance under the name, which has to exist. -/
def onObject (context : Context) (name : Oid)
    (program : Effect MibScalarInstance MibException Unit) : Effect Slot MibException Unit := do
  let slot ← get
  match slot.object with
  | none => raise (mibError .noSuchInstance context name)
  | some object =>
    focus (fun _ ↦ object) (fun object slot ↦ { slot with object := some object }) program

/-- Run a program on an instance that has been created. -/
def onCreated (object : MibScalarInstance)
    (program : Effect MibScalarInstance MibException Unit) : Effect Slot MibException Unit :=
  focus (fun _ ↦ object) (fun object slot ↦ { slot with created := some (some object) }) program

/-- Count a change of the column. -/
def bumpVersion : Effect Slot MibException Unit :=
  modify fun slot ↦ { slot with branchVersionId := slot.branchVersionId + 1 }

variable (column : ManagedObject) (context : Context) (name : Oid) (value : Option Value)

/-! ### Write, as a scalar does -/

/-- `MibScalar.writeTest`. -/
def scalarWriteTest : Effect Slot MibException Unit := do
  if name = column.name then
    raise (mibError .noAccess context name)
  else do
    liftExcept (checkAccess column.maxAccess.isWritable .notWritable .write context name)
    onObject context name (InstanceWrite.writeTest context name value)

/-- The phases of `MibScalar`, which are those of the instance under the name. -/
def scalarWrite : SubAction → Effect Slot MibException Unit
  | .test => scalarWriteTest column context name value
  | .commit => onObject context name (InstanceWrite.writeCommit context name)
  | .cleanup => do
    bumpVersion
    onObject context name InstanceWrite.writeCleanup
  | .undo => onObject context name InstanceWrite.writeUndo

/-! ### Creation -/

/-- The instance a column creates. -/
def protoInstance : MibScalarInstance where
  name := column.name ++ name.drop column.name.length
  syntaxClass := column.syntaxClass
  syntaxObj := some column.syntaxClass.default

/-- `MibTableColumn.createTest`: an instance without a value of its own is created once. -/
def createTest : Effect Slot MibException Unit := do
  if name = column.name then
    raise (mibError .noAccess context name)
  else do
    liftExcept (checkAccess (value.isNone || column.maxAccess == .readCreate) .noCreation .write
      context name)
    let slot ← get
    if value.isNone && slot.created.isSome then
      pure ()
    else do
      modify fun slot ↦ { slot with created := some (some (protoInstance column name)) }
      onCreated (protoInstance column name) (InstanceWrite.createTest context name value)

/-- `MibTableColumn.createCommit`: the created instance takes its place in the column, and the one
it replaces, which is none, is kept in its stead. -/
def createCommit : Effect Slot MibException Unit := do
  let slot ← get
  match slot.object with
  | some _ =>
    if slot.created.isSome then
      onObject context name (InstanceWrite.createCommit context name value)
    else
      pure ()
  | none =>
    match slot.created with
    | none => raise (.python .keyError)
    | some none => raise (.python .attributeError)
    | some (some object) => do
      onCreated object (InstanceWrite.createCommit context name value)
      modify fun slot ↦ { slot with object := slot.created.join, created := some slot.object }

/-- `MibTableColumn.createCleanup`. -/
def createCleanup : Effect Slot MibException Unit := do
  bumpVersion
  let slot ← get
  match slot.created with
  | some (some object) => do
    onCreated object (InstanceWrite.createCleanup value)
    modify fun slot ↦ { slot with created := none }
  | some none => modify fun slot ↦ { slot with created := none }
  | none =>
    if slot.object.isSome then
      onObject context name (InstanceWrite.createCleanup value)
    else
      pure ()

/-- `MibTableColumn.createUndo`; an instance without a value cannot be compared and is dropped. -/
def createUndo : Effect Slot MibException Unit := do
  let slot ← get
  match slot.created with
  | none => pure ()
  | some none => modify fun slot ↦ { slot with object := none, created := none }
  | some (some object) =>
    if object.syntaxObj.any fun syntaxObj ↦ !syntaxObj.isValue then
      modify fun slot ↦ { slot with object := none, created := none }
    else do
      modify fun slot ↦ { slot with object := some object, created := none }
      onObject context name (InstanceWrite.createUndo value)

/-- The phases of a creation. -/
def create : SubAction → Effect Slot MibException Unit
  | .test => createTest column context name value
  | .commit => createCommit context name value
  | .cleanup => createCleanup context name value
  | .undo => createUndo context name value

/-! ### Destruction -/

/-- `MibTableColumn.destroyTest`. -/
def destroyTest : Effect Slot MibException Unit := do
  if name = column.name then
    raise (mibError .noAccess context name)
  else do
    let slot ← get
    if slot.object.isSome then do
      liftExcept (checkAccess (value.isNone || column.maxAccess == .readCreate) .noAccess .write
        context name)
      onObject context name (InstanceWrite.destroyTest context name value)
    else
      pure ()

/-- `MibTableColumn.destroyCommit`. -/
def destroyCommit : Effect Slot MibException Unit :=
  modify fun slot ↦
    match slot.object with
    | none => slot
    | some object => { slot with object := none, destroyed := some object }

/-- `MibTableColumn.destroyCleanup`. -/
def destroyCleanup : Effect Slot MibException Unit := do
  bumpVersion
  modify fun slot ↦ { slot with destroyed := none }

/-- `MibTableColumn.destroyUndo`. -/
def destroyUndo : Effect Slot MibException Unit :=
  modify fun slot ↦
    match slot.destroyed with
    | none => slot
    | some object => { slot with object := some object, destroyed := none }

/-- The phases of a destruction. -/
def destroy : SubAction → Effect Slot MibException Unit
  | .test => destroyTest column context name value
  | .commit => destroyCommit
  | .cleanup => destroyCleanup
  | .undo => destroyUndo

/-! ### Write -/

/-- Record a row operation. -/
def wantRowOp (operation : Option RowOperation) : Effect Slot MibException Unit :=
  modify fun slot ↦ { slot with rowOpWanted := operation }

/-- Raise the row operation that is recorded. -/
def raiseRowOp : Effect Slot MibException Unit := do
  let slot ← get
  match slot.rowOpWanted with
  | none => pure ()
  | some operation => raise (RowOperation.exception operation)

/-- Drop the row operation that is recorded, and raise it. -/
def dropRowOp : Effect Slot MibException Unit := do
  let slot ← get
  match slot.rowOpWanted with
  | none => pure ()
  | some operation => do
    wantRowOp none
    raise (RowOperation.exception operation)

/-- `MibTableColumn.writeTest`. -/
def writeTest : Effect Slot MibException Unit := do
  handle (scalarWriteTest column context name value) fun exception ↦
    match exception with
    | .smi error =>
      if error.kind = .noSuchInstance then do
        wantRowOp (some (.creationWanted none))
        createTest column context name value
      else if error.kind = .rowCreationWanted then do
        wantRowOp (some (.creationWanted error.syntaxDetail))
        createTest column context name value
      else if error.kind = .rowDestructionWanted then do
        wantRowOp (some .destructionWanted)
        destroyTest column context name value
      else
        raise (.smi error)
    | .python error => raise (.python error)
  raiseRowOp

/-- `MibTableColumn.__delegateWrite`. -/
def delegateWrite (subAction : SubAction) : Effect Slot MibException Unit := do
  let slot ← get
  match slot.rowOpWanted with
  | none => scalarWrite column context name value subAction
  | some (.creationWanted _) => create column context name value subAction
  | some .destructionWanted => destroy column context name value subAction

/-- `MibTableColumn.writeCommit`. -/
def writeCommit : Effect Slot MibException Unit := do
  delegateWrite column context name value .commit
  raiseRowOp

/-- `MibTableColumn.writeCleanup`. -/
def writeCleanup : Effect Slot MibException Unit := do
  bumpVersion
  delegateWrite column context name value .cleanup
  dropRowOp

/-- `MibTableColumn.writeUndo`: whatever the binding has asked for, it is undone as a
destruction. -/
def writeUndo : Effect Slot MibException Unit := do
  modify fun slot ↦ { slot with rowOpWanted := slot.rowOpWanted.map fun _ ↦ .destructionWanted }
  delegateWrite column context name value .undo
  dropRowOp

/-- The phases of a write of a column. -/
def write : SubAction → Effect Slot MibException Unit
  | .test => writeTest column context name value
  | .commit => writeCommit column context name value
  | .cleanup => writeCleanup column context name value
  | .undo => writeUndo column context name value

end ColumnWrite

end Pysnmp.Smi
