import Pysnmp.Foundation.Effect
import Pysnmp.Smi.ManagedObjects

/-!
# Writing an instance

`MibScalarInstance.setValue` and the phases of a write, a creation and a destruction. A row status
takes a new value through the transitions of its states, and asks for the creation or destruction
of its row by an exception that carries the value to take (`stateMatrix`). `writeCommit` keeps the
present value, unless one is already kept, and takes the tested one; `writeUndo` takes back what is
kept, whatever that is.
-/

set_option autoImplicit false
set_option relaxedAutoImplicit false

namespace Pysnmp.Smi.InstanceWrite

open Foundation Foundation.Effect Proto

/-! ### New values -/

/-- An exception of an operation on a binding, without further details. -/
def mibError (kind : SmiErrorKind) (context : Context) (name : Oid) : MibException :=
  .smi ⟨kind, some context.idx, some name, none⟩

/-- `RowStatus.stateMatrix`: for a new and a present state, the error to raise and the state to
take. -/
def stateMatrix : ℤ → ℤ → Option (Option SmiErrorKind × ℤ)
  | 4, 0 => some (some .rowCreationWanted, 1)
  | 4, 3 => some (some .inconsistentValue, 3)
  | 4, 2 => some (some .inconsistentValue, 2)
  | 4, 1 => some (some .inconsistentValue, 1)
  | 5, 0 => some (some .rowCreationWanted, 1)
  | 5, 3 => some (some .inconsistentValue, 3)
  | 5, 2 => some (some .inconsistentValue, 2)
  | 5, 1 => some (some .inconsistentValue, 1)
  | 1, 0 => some (some .inconsistentValue, 0)
  | 1, 3 => some (some .inconsistentValue, 3)
  | 1, 2 => some (none, 1)
  | 1, 1 => some (none, 1)
  | 2, 0 => some (some .inconsistentValue, 0)
  | 2, 3 => some (some .inconsistentValue, 3)
  | 2, 2 => some (none, 2)
  | 2, 1 => some (none, 1)
  | 6, 0 => some (some .rowDestructionWanted, 0)
  | 6, 3 => some (some .rowDestructionWanted, 0)
  | 6, 2 => some (some .rowDestructionWanted, 0)
  | 6, 1 => some (some .rowDestructionWanted, 0)
  | 0, 0 => some (none, 0)
  | _, _ => none

/-- The state a row status shows; one without a value shows `notExists`. -/
def rowState (object : Syntax) : Option ℤ :=
  match object.value with
  | none => some 0
  | some (.integer state) => some state
  | some _ => none

/-- What a syntax object makes of a new value: the object to take, a row operation to ask for with
the object to take then, or neither. -/
inductive NewValue
  | taken (object : Syntax)
  | rowCreation (object : Syntax)
  | rowDestruction (object : Syntax)
  | refused
  deriving DecidableEq, Repr

/-- `RowStatus.setValue`. -/
def setRowStatus (syntaxClass : SyntaxClass) (current : Syntax) (value : Value) : NewValue :=
  match (syntaxClass.clone value).bind fun cloned ↦ rowState ⟨some cloned⟩, rowState current with
  | some newState, some state =>
    match stateMatrix newState state with
    | none => .refused
    | some (error, next) =>
      match syntaxClass.clone (.integer next), error with
      | none, _ => .refused
      | some object, none => .taken ⟨some object⟩
      | some object, some .rowCreationWanted => .rowCreation ⟨some object⟩
      | some object, some .rowDestructionWanted => .rowDestruction ⟨some object⟩
      | some _, some _ => .refused
  | _, _ => .refused

/-- `value + 1`, for an `Integer`: it is made anew and has to lie in the range of the type. -/
def addOne (value : ℤ) : Option ℤ :=
  if -2147483648 ≤ value + 1 ∧ value + 1 ≤ 2147483647 then some (value + 1) else none

/-- `TestAndIncr.setValue`. -/
def setTestAndIncr (syntaxClass : SyntaxClass) (current : Syntax) (value : Value) : NewValue :=
  match value, current.value with
  | .integer value, some (.integer present) =>
    if value ≠ present then
      .refused
    else
      match addOne value with
      | none => .refused
      | some next =>
        match syntaxClass.clone (.integer (if next > 2147483646 then 0 else next)) with
        | none => .refused
        | some object => .taken ⟨some object⟩
  | _, _ => .refused

/-- The `setValue` of the syntax, or its `clone` where it has none. -/
def setSyntax (syntaxClass : SyntaxClass) (current : Syntax) (value : Value) : NewValue :=
  match syntaxClass.kind with
  | .rowStatus => setRowStatus syntaxClass current value
  | .testAndIncr => setTestAndIncr syntaxClass current value
  | .plain =>
    match syntaxClass.clone value with
    | none => .refused
    | some object => .taken ⟨some object⟩

/-- `MibScalarInstance.setValue`: no value asks for the default, which is the object as it is, and a
value that is refused is a wrong one. -/
def setValue (object : MibScalarInstance) (value : Option Value) (context : Context) (name : Oid) :
    Except MibException Syntax :=
  match object.syntaxObj, value with
  | none, _ => .error (.python .attributeError)
  | some current, none => .ok current
  | some current, some value =>
    match setSyntax object.syntaxClass current value with
    | .taken next => .ok next
    | .rowCreation next => .error (.smi { kind := .rowCreationWanted, syntaxDetail := some next })
    | .rowDestruction next =>
      .error (.smi { kind := .rowDestructionWanted, syntaxDetail := some next })
    | .refused => .error (mibError .wrongValue context name)

/-! ### Write -/

/-- Keep a tested value. -/
def storeNewSyntax (next : Option Syntax) : Effect MibScalarInstance MibException Unit :=
  modify fun object ↦ { object with newSyntax := some next }

/-- `MibScalarInstance.writeTest`: a row operation is asked for after its value is kept. -/
def writeTest (context : Context) (name : Oid) (value : Option Value) :
    Effect MibScalarInstance MibException Unit := do
  let object ← get
  if name = object.name then
    match setValue object value context name with
    | .ok next => storeNewSyntax (some next)
    | .error (.smi error) =>
      match error.syntaxDetail with
      | some next => do
        storeNewSyntax (some next)
        raise (.smi error)
      | none => raise (mibError .wrongValue context name)
    | .error (.python error) => raise (.python error)
  else
    raise (mibError .noSuchInstance context name)

/-- Keep the present value, unless one is kept, and take the tested one. -/
def commitSyntax : Effect MibScalarInstance MibException Unit := do
  let object ← get
  modify fun object ↦ { object with oldSyntax := object.oldSyntax <|> object.syntaxObj }
  match object.newSyntax with
  | none => raise (.python .attributeError)
  | some next => modify fun object ↦ { object with syntaxObj := next }

/-- `MibScalarInstance.writeCommit`, with what a subclass may raise before or after it. -/
def writeCommit (context : Context) (name : Oid) : Effect MibScalarInstance MibException Unit := do
  let object ← get
  match object.commitFailure with
  | none => commitSyntax
  | some (.before kind) => raise (mibError kind context name)
  | some (.after kind) => do
    commitSyntax
    raise (mibError kind context name)

/-- `MibScalarInstance.writeCleanup`. -/
def writeCleanup : Effect MibScalarInstance MibException Unit :=
  modify fun object ↦ { object with newSyntax := some none, oldSyntax := none }

/-- `MibScalarInstance.writeUndo`. -/
def writeUndo : Effect MibScalarInstance MibException Unit :=
  modify fun object ↦
    { object with syntaxObj := object.oldSyntax, newSyntax := some none, oldSyntax := none }

/-! ### Creation and destruction -/

/-- `MibScalarInstance.createTest`: unlike `writeTest` it passes over the row operation that a new
row status asks for. -/
def createTest (context : Context) (name : Oid) (value : Option Value) :
    Effect MibScalarInstance MibException Unit := do
  let object ← get
  if name = object.name then
    match setValue object value context name with
    | .ok next => storeNewSyntax (some next)
    | .error (.smi error) =>
      match error.syntaxDetail with
      | some next => storeNewSyntax (some next)
      | none => raise (mibError .wrongValue context name)
    | .error (.python error) => raise (.python error)
  else
    raise (mibError .noSuchInstance context name)

/-- `MibScalarInstance.createCommit`. -/
def createCommit (context : Context) (name : Oid) (value : Option Value) :
    Effect MibScalarInstance MibException Unit :=
  if value.isSome then writeCommit context name else pure ()

/-- `MibScalarInstance.createCleanup`. -/
def createCleanup (value : Option Value) : Effect MibScalarInstance MibException Unit :=
  if value.isSome then writeCleanup else pure ()

/-- `MibScalarInstance.createUndo`. -/
def createUndo (value : Option Value) : Effect MibScalarInstance MibException Unit :=
  if value.isSome then writeUndo else pure ()

/-- `MibScalarInstance.destroyTest`: a value that is refused is passed over. -/
def destroyTest (context : Context) (name : Oid) (value : Option Value) :
    Effect MibScalarInstance MibException Unit := do
  let object ← get
  if name = object.name then
    match setValue object value context name with
    | .ok next => storeNewSyntax (some next)
    | .error (.smi error) =>
      match error.syntaxDetail with
      | some next => storeNewSyntax (some next)
      | none => pure ()
    | .error (.python error) => raise (.python error)
  else
    raise (mibError .noSuchInstance context name)

end Pysnmp.Smi.InstanceWrite
